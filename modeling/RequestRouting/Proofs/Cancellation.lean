import RequestRouting.Dispatch.Engine
import RequestRouting.TextEvent

/-!
# Cancelled dispatches

Whoever holds the handle of a dispatch can abort it, at any point of its run. The dispatch notices
that when it next stops to wait, and is dropped there: what it has done by then is what it would
have done anyway, and nothing is done on the way out (`Dispatcher.abort_cuts_at_next_stop`). A
dispatch that does not stop any more is not touched.

Runs are compared by what happens in them. `Task.record` takes a task to its end as `Task.run` does,
and keeps a list of the changes of the world, the uses of the handle and the stops.
-/

namespace RequestRouting

variable {E W : Type}

/-! ## Records of runs -/

/-- What happens in a run. -/
inductive Happening (W : Type)
  /-- The world is changed, by a callback or by a report about one. -/
  | change (update : W → W)
  /-- The handle of the dispatch is used to abort it. -/
  | abort
  /-- The dispatch stops and waits to be taken up again. -/
  | stop

namespace Happening

/-- Whether the handle is used. -/
def isAbort : Happening W → Bool
  | abort => true
  | change _ | stop => false

/-- The world after a happening. -/
def apply (world : W) : Happening W → W
  | change update => update world
  | abort | stop => world

/-- What is left of a run that can be aborted: it ends with the first stop after a use of the
handle. The flag says whether the handle has been used before. -/
def untilCancelled : Bool → List (Happening W) → List (Happening W)
  | _, [] => []
  | aborted, change update :: seen => change update :: untilCancelled aborted seen
  | _, abort :: seen => abort :: untilCancelled true seen
  | false, stop :: seen => stop :: untilCancelled false seen
  | true, stop :: _ => [stop]

/-- Whether a run that can be aborted stops after a use of the handle. -/
def cancels : Bool → List (Happening W) → Bool
  | _, [] => false
  | aborted, change _ :: seen => cancels aborted seen
  | _, abort :: seen => cancels true seen
  | false, stop :: seen => cancels false seen
  | true, stop :: _ => true

variable {seen first second : List (Happening W)} {aborted : Bool}

theorem cancels_append (aborted : Bool) (first second : List (Happening W)) :
    cancels aborted (first ++ second) =
      (cancels aborted first || cancels (aborted || first.any isAbort) second) := by
  induction first generalizing aborted with
  | nil => simp [cancels]
  | cons happening first ih =>
      match happening, aborted with
      | change _, _ | abort, _ | stop, false => simp [cancels, ih, isAbort]
      | stop, true => rfl

theorem untilCancelled_append_of_cancels (hfirst : cancels aborted first = true) :
    untilCancelled aborted (first ++ second) = untilCancelled aborted first := by
  induction first generalizing aborted with
  | nil => cases hfirst
  | cons happening first ih =>
      match happening, aborted with
      | change _, _ | abort, _ | stop, false => exact congrArg (List.cons _) (ih hfirst)
      | stop, true => rfl

theorem untilCancelled_append (hfirst : cancels aborted first = false) :
    untilCancelled aborted (first ++ second) =
      first ++ untilCancelled (aborted || first.any isAbort) second := by
  induction first generalizing aborted with
  | nil => simp
  | cons happening first ih =>
      match happening, aborted with
      | change _, _ | abort, _ | stop, false => simpa [untilCancelled, isAbort] using ih hfirst
      | stop, true => cases hfirst

theorem untilCancelled_eq_self (hseen : cancels aborted seen = false) :
    untilCancelled aborted seen = seen := by
  have happend : untilCancelled aborted (seen ++ []) = seen ++ untilCancelled _ [] :=
    untilCancelled_append hseen
  rwa [List.append_nil, untilCancelled, List.append_nil] at happend

theorem cancels_true_iff : cancels true seen = true ↔ stop ∈ seen := by
  induction seen with
  | nil => simp [cancels]
  | cons happening seen ih => cases happening <;> simp [cancels, ih]

/-- A run that can be aborted is cancelled if it stops after a use of the handle. -/
theorem cancels_iff : cancels false seen = true ↔ [abort, stop].Sublist seen := by
  induction seen with
  | nil => simp [cancels]
  | cons happening seen ih =>
      cases happening with
      | change update => simp [cancels, ih, List.sublist_cons_iff]
      | stop => simp [cancels, ih, List.sublist_cons_iff]
      | abort =>
          have hstop : [stop].Sublist seen ↔ stop ∈ seen := List.singleton_sublist
          rw [cancels, cancels_true_iff, List.sublist_cons_iff]
          simp only [List.cons.injEq, true_and, exists_eq_left', hstop]
          exact ⟨.inr, Or.rec (fun hlater => hlater.subset (by simp)) id⟩

/-- A cancelled run is cut at the first stop after a use of the handle. -/
theorem exists_cut (hseen : cancels aborted seen = true) :
    ∃ before after, seen = before ++ stop :: after ∧
      untilCancelled aborted seen = before ++ [stop] ∧ (aborted = true ∨ abort ∈ before) ∧
      cancels aborted before = false := by
  induction seen generalizing aborted with
  | nil => cases hseen
  | cons happening seen ih =>
      match happening, aborted with
      | stop, true => exact ⟨[], seen, rfl, rfl, .inl rfl, rfl⟩
      | stop, false =>
          obtain ⟨before, after, rfl, hcut, hused, hnone⟩ := ih hseen
          exact ⟨stop :: before, after, rfl, congrArg _ hcut, hused.imp id (.tail _), hnone⟩
      | change update, aborted =>
          obtain ⟨before, after, rfl, hcut, hused, hnone⟩ := ih hseen
          exact ⟨change update :: before, after, rfl, congrArg _ hcut, hused.imp id (.tail _),
            hnone⟩
      | abort, _ =>
          obtain ⟨before, after, rfl, hcut, _, hnone⟩ := ih hseen
          exact ⟨abort :: before, after, rfl, congrArg _ hcut, .inr List.mem_cons_self, hnone⟩

end Happening

open Happening

/-- A run with what has happened in it. -/
structure Recorded (E W : Type) where
  /-- What has happened, in order. -/
  seen : List (Happening W) := []
  ending : Ending E
  clock : Clock
  world : W

/-- The run with something in front. -/
def Recorded.behind (first : List (Happening W)) (run : Recorded E W) : Recorded E W :=
  { run with seen := first ++ run.seen }

/-- Whether a task that waits stops the dispatch. It does not if it has nothing to wait for, or if a
limit has passed by then: the part within that limit is dropped at once. -/
def Clock.stops (clock : Clock) (deadlines : List Nat) (how : Pause) : Bool :=
  how != .sleep ⟨0⟩ && (passed? clock.now deadlines).isNone

/-- Takes a task to its end and keeps a record. -/
def Task.record (deadlines : List Nat) : Task E W → Clock → W → Recorded E W
  | done ctx, clock, world => { ending := .finished ctx, clock, world }
  | act update resume, clock, world =>
      ((resume (update world)).record deadlines clock (update world)).behind [.change update]
  | pause how resume, clock, world =>
      let seen := if clock.stops deadlines how then [.stop] else []
      match clock.wait deadlines how with
      | .ok later => (resume.record deadlines later world).behind seen
      | .error (cause, later) => { seen, ending := .interrupted cause, clock := later, world }
  | abort resume, clock, world =>
      (resume.record deadlines { clock with aborted := clock.aborted || clock.abortable }
        world).behind [.abort]
  | limited limit part resume, clock, world =>
      let run := part.record ((clock.now + limit.nanoseconds) :: deadlines) clock world
      match run.ending with
      | .finished ctx => ((resume (some ctx)).record deadlines run.clock run.world).behind run.seen
      | .interrupted (.expired 0) =>
          ((resume none).record deadlines run.clock run.world).behind run.seen
      | .interrupted (.expired (number + 1)) =>
          { run with ending := .interrupted (.expired number) }
      | .interrupted .cancelled => { run with ending := .interrupted .cancelled }

namespace Task

/-- A recorded run ends like any other. -/
theorem record_eq_run (task : Task E W) (deadlines : List Nat) (clock : Clock) (world : W) :
    ((task.record deadlines clock world).ending, (task.record deadlines clock world).clock,
      (task.record deadlines clock world).world) = task.run deadlines clock world := by
  induction task generalizing deadlines clock world with
  | done ctx => rfl
  | act update resume ih => exact ih (update world) deadlines clock (update world)
  | abort resume ih => exact ih deadlines _ world
  | pause how resume ih =>
      rw [record, run]
      cases clock.wait deadlines how with
      | ok later => exact ih deadlines later world
      | error stopped => rfl
  | limited limit part resume ihPart ihResume =>
      rw [record, run, ← ihPart]
      generalize part.record _ clock world = inner
      obtain ⟨seen, ending, later, after⟩ := inner
      match ending with
      | .finished ctx => exact ihResume (some ctx) deadlines later after
      | .interrupted (.expired 0) => exact ihResume none deadlines later after
      | .interrupted (.expired (number + 1)) => rfl
      | .interrupted .cancelled => rfl

/-- The record accounts for the world. -/
theorem world_record (task : Task E W) (deadlines : List Nat) (clock : Clock) (world : W) :
    (task.record deadlines clock world).world =
      (task.record deadlines clock world).seen.foldl apply world := by
  induction task generalizing deadlines clock world with
  | done ctx => rfl
  | act update resume ih => exact ih (update world) deadlines clock (update world)
  | abort resume ih => exact ih deadlines _ world
  | pause how resume ih =>
      rw [record]
      cases clock.wait deadlines how with
      | ok later =>
          refine (ih deadlines later world).trans ?_
          cases clock.stops deadlines how <;> rfl
      | error stopped => cases clock.stops deadlines how <;> rfl
  | limited limit part resume ihPart ihResume =>
      have hpart := ihPart ((clock.now + limit.nanoseconds) :: deadlines) clock world
      rw [record]
      generalize part.record _ clock world = inner at hpart ⊢
      obtain ⟨seen, ending, later, after⟩ := inner
      dsimp only at hpart
      subst hpart
      match ending with
      | .finished ctx => exact (ihResume (some ctx) deadlines later _).trans List.foldl_append.symm
      | .interrupted (.expired 0) =>
          exact (ihResume none deadlines later _).trans List.foldl_append.symm
      | .interrupted (.expired (number + 1)) => rfl
      | .interrupted .cancelled => rfl

end Task

/-! ## Runs with a handle and without -/

namespace Clock

/-- The clock of a run without a handle. -/
def Calm (clock : Clock) : Prop := clock.abortable = false ∧ clock.aborted = false

/-- The clock of a run with a handle, which has been used or not. -/
def armed (clock : Clock) (aborted : Bool) : Clock := { clock with abortable := true, aborted }

variable {clock later : Clock} {deadlines : List Nat} {how : Pause}

theorem number_lt_of_passed? {now number : Nat} (hpassed : passed? now deadlines = some number) :
    number < deadlines.length :=
  (List.findIdx?_eq_some_iff_getElem.mp hpassed).1

/-- Without a handle only a limit can be in the way of going on, one of those that there are. -/
theorem Calm.wait (hcalm : clock.Calm) (deadlines : List Nat) (how : Pause) :
    match clock.wait deadlines how with
    | .ok later => later.Calm
    | .error (cause, later) =>
        later.Calm ∧ ∃ number < deadlines.length, cause = .expired number := by
  obtain ⟨now, abortable, aborted⟩ := clock
  obtain ⟨rfl, rfl⟩ := hcalm
  have hnumber (time : Nat) (hsome : deadlines ≠ []) :
      (passed? time deadlines).getD 0 < deadlines.length := by
    cases hpassed : passed? time deadlines with
    | none => exact List.length_pos_iff.mpr hsome
    | some number => exact number_lt_of_passed? hpassed
  match how with
  | .sleep ⟨0⟩ => exact ⟨rfl, rfl⟩
  | .turn =>
      dsimp only [Clock.wait]
      cases hpassed : passed? now deadlines with
      | some number => exact ⟨⟨rfl, rfl⟩, number, number_lt_of_passed? hpassed, rfl⟩
      | none => exact ⟨rfl, rfl⟩
  | .sleep ⟨span + 1⟩ =>
      dsimp only [Clock.wait]
      cases hpassed : passed? now deadlines with
      | some number => exact ⟨⟨rfl, rfl⟩, number, number_lt_of_passed? hpassed, rfl⟩
      | none =>
          cases hearliest : earliest? deadlines with
          | none => exact ⟨rfl, rfl⟩
          | some deadline =>
              have hsome : deadlines ≠ [] := fun hnil => by
                rw [hnil] at hearliest
                cases hearliest
              by_cases hreached : now + (span + 1) ≤ deadline
              · simp [hreached, Calm]
              · simp [hreached, Calm, hnumber deadline hsome]

/-- Without a handle there is nothing to abort with. -/
theorem Calm.abort (hcalm : clock.Calm) :
    { clock with aborted := clock.aborted || clock.abortable } = clock := by
  obtain ⟨now, abortable, aborted⟩ := clock
  obtain ⟨rfl, rfl⟩ := hcalm
  rfl

/-- With a handle the clock goes as without, but for the stops after a use of the handle. -/
theorem wait_armed (hcalm : clock.Calm) (aborted : Bool) :
    (clock.armed aborted).wait deadlines how =
      if aborted && clock.stops deadlines how then .error (.cancelled, clock.armed aborted)
      else
        match clock.wait deadlines how with
        | .ok later => .ok (later.armed aborted)
        | .error (cause, later) => .error (cause, later.armed aborted) := by
  obtain ⟨_, haborted⟩ := hcalm
  match how with
  | .sleep ⟨0⟩ => simp [Clock.wait, stops]
  | .turn =>
      simp only [Clock.wait, stops, armed, haborted]
      cases passed? clock.now deadlines <;> cases aborted <;> simp
  | .sleep ⟨span + 1⟩ =>
      simp only [Clock.wait, stops, armed, haborted]
      cases passed? clock.now deadlines with
      | some number => cases aborted <;> simp
      | none =>
          cases earliest? deadlines with
          | none => cases aborted <;> simp
          | some deadline =>
              by_cases hreached : clock.now + (span + 1) ≤ deadline <;>
                cases aborted <;> simp [hreached]

end Clock

/-- The run ends by itself or with one of so many limits around it. -/
def Ending.Within (limits : Nat) : Ending E → Prop
  | finished _ => True
  | interrupted (.expired number) => number < limits
  | interrupted .cancelled => False

theorem Ending.Within.exists_eq_finished {ending : Ending E} (hwithin : ending.Within 0) :
    ∃ ctx, ending = .finished ctx := by
  match ending with
  | .finished ctx => exact ⟨ctx, rfl⟩

namespace Recorded

/-- The second run is the first one with a handle. It ends as the first one does, unless it stops
after a use of the handle: then it is cancelled there. -/
structure CutBy (aborted : Bool) (calm live : Recorded E W) : Prop where
  seen : live.seen = untilCancelled aborted calm.seen
  cancelled : cancels aborted calm.seen = true → live.ending = .interrupted .cancelled
  kept : cancels aborted calm.seen = false →
    live.ending = calm.ending ∧
      live.clock = calm.clock.armed (aborted || calm.seen.any isAbort) ∧ live.world = calm.world

theorem CutBy.behind {aborted : Bool} {first : List (Happening W)} {calm live : Recorded E W}
    (hfirst : cancels aborted first = false)
    (hcut : CutBy (aborted || first.any isAbort) calm live) :
    CutBy aborted (calm.behind first) (live.behind first) where
  seen := by
    change first ++ live.seen = untilCancelled aborted (first ++ calm.seen)
    rw [untilCancelled_append hfirst, hcut.seen]
  cancelled := by
    change cancels aborted (first ++ calm.seen) = true → _
    rw [cancels_append, hfirst, Bool.false_or]
    exact hcut.cancelled
  kept := by
    change cancels aborted (first ++ calm.seen) = false → _
    rw [cancels_append, hfirst, Bool.false_or]
    intro hkept
    obtain ⟨hending, hclock, hworld⟩ := hcut.kept hkept
    refine ⟨hending, hclock.trans ?_, hworld⟩
    simp [Recorded.behind, List.any_append, Bool.or_assoc]

/-- What comes after the cut does not count. -/
theorem CutBy.of_cancels {aborted : Bool} {first later : List (Happening W)}
    {calm live : Recorded E W} (hfirst : cancels aborted first = true)
    (hcalm : calm.seen = first ++ later) (hseen : live.seen = untilCancelled aborted first)
    (hending : live.ending = .interrupted .cancelled) : CutBy aborted calm live where
  seen := by rw [hseen, hcalm, untilCancelled_append_of_cancels hfirst]
  cancelled := fun _ => hending
  kept := by
    rw [hcalm, cancels_append, hfirst]
    nofun

end Recorded

namespace Task

open Recorded

/-- Without a handle a run goes on as if it had not been used. -/
theorem record_abort_of_calm (resume : Task E W) {clock : Clock} (hcalm : clock.Calm)
    (deadlines : List Nat) (world : W) :
    (abort resume).record deadlines clock world =
      (resume.record deadlines clock world).behind [.abort] := by
  rw [record, hcalm.abort]

/-- A run without a handle comes to its end, unless one of the limits around it passes. -/
theorem calm_record (task : Task E W) {clock : Clock} (hcalm : clock.Calm) (deadlines : List Nat)
    (world : W) :
    (task.record deadlines clock world).clock.Calm ∧
      (task.record deadlines clock world).ending.Within deadlines.length := by
  induction task generalizing deadlines clock world with
  | done ctx => exact ⟨hcalm, trivial⟩
  | act update resume ih => exact ih (update world) hcalm deadlines (update world)
  | abort resume ih =>
      rw [record_abort_of_calm resume hcalm]
      exact ih hcalm deadlines world
  | pause how resume ih =>
      have hwait := hcalm.wait deadlines how
      rw [record]
      generalize clock.wait deadlines how = waited at hwait ⊢
      match waited with
      | .ok later => exact ih hwait deadlines world
      | .error (cause, later) =>
          obtain ⟨hlater, number, hnumber, rfl⟩ := hwait
          exact ⟨hlater, hnumber⟩
  | limited limit part resume ihPart ihResume =>
      have hpart := ihPart hcalm ((clock.now + limit.nanoseconds) :: deadlines) world
      rw [record]
      generalize part.record _ clock world = inner at hpart ⊢
      obtain ⟨seen, ending, later, after⟩ := inner
      match ending with
      | .finished ctx => exact ihResume (some ctx) hpart.1 deadlines after
      | .interrupted (.expired 0) => exact ihResume none hpart.1 deadlines after
      | .interrupted (.expired (number + 1)) => exact ⟨hpart.1, Nat.lt_of_succ_lt_succ hpart.2⟩

/-- A run with a handle is the run without it, cut where the use of the handle is noticed. -/
theorem record_armed (task : Task E W) {clock : Clock} (hcalm : clock.Calm) (aborted : Bool)
    (deadlines : List Nat) (world : W) :
    CutBy aborted (task.record deadlines clock world)
      (task.record deadlines (clock.armed aborted) world) := by
  induction task generalizing deadlines clock aborted world with
  | done ctx =>
      exact ⟨rfl, nofun, fun _ => ⟨rfl, congrArg clock.armed (Bool.or_false _).symm, rfl⟩⟩
  | act update resume ih =>
      have hresume := ih (update world) hcalm aborted deadlines (update world)
      refine CutBy.behind rfl ?_
      rwa [List.any_cons, isAbort, Bool.false_or, List.any_nil, Bool.or_false]
  | abort resume ih =>
      have hused : { clock.armed aborted with
          aborted := (clock.armed aborted).aborted || (clock.armed aborted).abortable } =
          clock.armed true := by
        simp [Clock.armed]
      rw [record_abort_of_calm resume hcalm, record, hused]
      refine CutBy.behind rfl ?_
      rw [List.any_cons, isAbort, Bool.true_or, Bool.or_true]
      exact ih hcalm true deadlines world
  | pause how resume ih =>
      have hstops : (clock.armed aborted).stops deadlines how = clock.stops deadlines how := rfl
      have hwait := hcalm.wait deadlines how
      rw [record, record, hstops, Clock.wait_armed hcalm]
      by_cases hcut : (aborted && clock.stops deadlines how) = true
      · obtain ⟨rfl, hstop⟩ := Bool.and_eq_true_iff.mp hcut
        rw [if_pos hcut, hstop, if_pos rfl]
        cases clock.wait deadlines how with
        | ok later => exact .of_cancels rfl rfl rfl rfl
        | error stopped => exact .of_cancels rfl (List.append_nil _).symm rfl rfl
      · have hfirst : cancels aborted (if clock.stops deadlines how then [stop] else [] :
            List (Happening W)) = false := by
          cases aborted <;> cases hstop : clock.stops deadlines how <;> simp_all [cancels]
        have hnone : (if clock.stops deadlines how then [stop] else [] :
            List (Happening W)).any isAbort = false := by
          split <;> rfl
        rw [if_neg hcut]
        cases hresult : clock.wait deadlines how with
        | ok later =>
            rw [hresult] at hwait
            refine CutBy.behind hfirst ?_
            rw [hnone, Bool.or_false]
            exact ih hwait aborted deadlines world
        | error stopped =>
            refine ⟨(untilCancelled_eq_self hfirst).symm,
              fun hcancels => absurd (hfirst.symm.trans hcancels) nofun, fun _ => ?_⟩
            rw [hnone, Bool.or_false]
            exact ⟨rfl, rfl, rfl⟩
  | limited limit part resume ihPart ihResume =>
      have hpart := ihPart hcalm aborted ((clock.now + limit.nanoseconds) :: deadlines) world
      have hlater := (part.calm_record hcalm ((clock.now + limit.nanoseconds) :: deadlines) world).1
      have hnow : (clock.armed aborted).now = clock.now := rfl
      rw [record, record, hnow]
      generalize part.record _ (clock.armed aborted) world = live at hpart ⊢
      generalize part.record _ clock world = inner at hpart hlater ⊢
      obtain ⟨hseen, hcancelled, hkept⟩ := hpart
      obtain ⟨seen, ending, later, after⟩ := inner
      obtain ⟨liveSeen, liveEnding, liveClock, liveWorld⟩ := live
      dsimp only at hseen hcancelled hkept hlater ⊢
      cases hcut : cancels aborted seen with
      | true =>
          obtain rfl := hcancelled hcut
          match ending with
          | .finished ctx => exact .of_cancels hcut rfl hseen rfl
          | .interrupted (.expired 0) => exact .of_cancels hcut rfl hseen rfl
          | .interrupted (.expired (number + 1)) =>
              exact .of_cancels hcut (List.append_nil _).symm hseen rfl
          | .interrupted .cancelled => exact .of_cancels hcut (List.append_nil _).symm hseen rfl
      | false =>
          obtain ⟨rfl, rfl, rfl⟩ := hkept hcut
          rw [untilCancelled_eq_self hcut] at hseen
          subst hseen
          match liveEnding with
          | .finished ctx => exact .behind hcut (ihResume (some ctx) hlater _ deadlines liveWorld)
          | .interrupted (.expired 0) =>
              exact .behind hcut (ihResume none hlater _ deadlines liveWorld)
          | .interrupted (.expired (number + 1)) | .interrupted .cancelled =>
              exact ⟨(untilCancelled_eq_self hcut).symm,
                fun hcancels => absurd (hcut.symm.trans hcancels) nofun,
                fun _ => ⟨rfl, rfl, rfl⟩⟩

end Task

/-! ## Where the handle is used -/

/-- What happens in a run, without the uses of the handle. -/
def Happening.deeds (seen : List (Happening W)) : List (Happening W) :=
  seen.filter fun happening => !happening.isAbort

theorem Happening.deeds_append (first second : List (Happening W)) :
    deeds (first ++ second) = deeds first ++ deeds second :=
  List.filter_append first second

/-- The second task is the first one with uses of the handle put in, at any points of any of its
runs. Whoever uses the handle while the task waits could as well have used it right before. -/
inductive Task.WithAborts : Task E W → Task E W → Prop
  | done (ctx : Context E) : WithAborts (done ctx) (done ctx)
  | act (update : W → W) {resume marked : W → Task E W}
      (hresume : ∀ world, WithAborts (resume world) (marked world)) :
      WithAborts (act update resume) (act update marked)
  | pause (how : Pause) {resume marked : Task E W} (hresume : WithAborts resume marked) :
      WithAborts (pause how resume) (pause how marked)
  | abort {resume marked : Task E W} (hresume : WithAborts resume marked) :
      WithAborts (abort resume) (abort marked)
  | limited (limit : Duration) {part markedPart : Task E W}
      {resume marked : Option (Context E) → Task E W} (hpart : WithAborts part markedPart)
      (hresume : ∀ result, WithAborts (resume result) (marked result)) :
      WithAborts (limited limit part resume) (limited limit markedPart marked)
  | put {task marked : Task E W} (htask : WithAborts task marked) : WithAborts task (.abort marked)

/-- The second run does what the first one does, and may use its handle. -/
structure Recorded.SameDeeds (run marked : Recorded E W) : Prop where
  deeds : deeds marked.seen = deeds run.seen
  ending : marked.ending = run.ending
  clock : marked.clock = run.clock
  world : marked.world = run.world

theorem Recorded.SameDeeds.behind {run marked : Recorded E W} {seen markedSeen : List (Happening W)}
    (hseen : Happening.deeds markedSeen = Happening.deeds seen) (hsame : SameDeeds run marked) :
    SameDeeds (run.behind seen) (marked.behind markedSeen) where
  deeds := by
    rw [Recorded.behind, Recorded.behind, deeds_append, deeds_append, hseen, hsame.deeds]
  ending := hsame.ending
  clock := hsame.clock
  world := hsame.world

namespace Task

open Recorded

namespace WithAborts

/-- No use of the handle need be put in. -/
theorem refl (task : Task E W) : task.WithAborts task := by
  induction task with
  | done ctx => exact .done ctx
  | act update resume ih => exact .act update ih
  | pause how resume ih => exact .pause how ih
  | abort resume ih => exact .abort ih
  | limited limit part resume ihPart ihResume => exact .limited limit ihPart ihResume

/-- Without a handle it makes no difference where it would be used. -/
theorem sameDeeds {task marked : Task E W} (hmarked : task.WithAborts marked) {clock : Clock}
    (hcalm : clock.Calm) (deadlines : List Nat) (world : W) :
    SameDeeds (task.record deadlines clock world) (marked.record deadlines clock world) := by
  induction hmarked generalizing deadlines clock world with
  | done ctx => exact ⟨rfl, rfl, rfl, rfl⟩
  | act update _ ih => exact (ih (update world) hcalm deadlines (update world)).behind rfl
  | pause how _ ih =>
      have hwait := hcalm.wait deadlines how
      rw [record, record]
      generalize clock.wait deadlines how = waited at hwait ⊢
      match waited with
      | .ok later => exact (ih hwait deadlines world).behind rfl
      | .error stopped => exact ⟨rfl, rfl, rfl, rfl⟩
  | abort _ ih =>
      rw [record_abort_of_calm _ hcalm, record_abort_of_calm _ hcalm]
      exact (ih hcalm deadlines world).behind rfl
  | put _ ih =>
      have hnothing : Happening.deeds [.abort] = Happening.deeds ([] : List (Happening W)) := rfl
      rw [record_abort_of_calm _ hcalm]
      exact (ih hcalm deadlines world).behind hnothing
  | @limited limit part markedPart resume marked _ _ ihPart ihResume =>
      have hpart := ihPart hcalm ((clock.now + limit.nanoseconds) :: deadlines) world
      have hlater := (part.calm_record hcalm ((clock.now + limit.nanoseconds) :: deadlines) world).1
      rw [record, record]
      generalize markedPart.record _ clock world = markedInner at hpart ⊢
      generalize part.record _ clock world = inner at hpart hlater ⊢
      obtain ⟨seen, _, _, _⟩ := inner
      obtain ⟨markedSeen, ending, later, after⟩ := markedInner
      obtain ⟨hdeeds, rfl, rfl, rfl⟩ := hpart
      match ending with
      | .finished ctx => exact (ihResume (some ctx) hlater deadlines after).behind hdeeds
      | .interrupted (.expired 0) => exact (ihResume none hlater deadlines after).behind hdeeds
      | .interrupted (.expired (number + 1)) => exact ⟨hdeeds, rfl, rfl, rfl⟩
      | .interrupted .cancelled => exact ⟨hdeeds, rfl, rfl, rfl⟩

end WithAborts

end Task

/-! ## Dispatches -/

namespace Dispatcher

open Recorded (CutBy SameDeeds)

variable [Routable E] [HasJournal W]

/-- An abort cuts a dispatch cleanly, wherever in its run the handle is used. A dispatch that is
aborted before it begins does nothing. Otherwise take the run without a handle, which comes to its
end, with the points marked at which the handle is used. If the run does not stop after any of them,
the abort changes nothing. If it does, the dispatch is cancelled at the first such stop, and has
done by then what the run does up to that stop, and no more. -/
theorem abort_cuts_at_next_stop (d : Dispatcher E W) (monitor : Monitor E W) (event : E)
    (attributes : Attributes) (start : Nat) (world : W) {marked : Task E W}
    (hmarked : (d.task monitor event attributes).WithAborts marked) :
    let unheld : Clock := { now := start }
    let held : Clock := { now := start, abortable := true }
    let unaborted := (d.task monitor event attributes).record [] unheld world
    let points := (marked.record [] unheld world).seen
    let live := marked.record [] held world
    Engine.suspending.process d event attributes { held with aborted := true } world =
        (.error .cancelled, world) ∧
      deeds points = deeds unaborted.seen ∧
      ∃ ctx, d.processSuspending monitor event attributes unheld world =
          (.ok ctx, unaborted.world) ∧
        ((¬[abort, stop].Sublist points ∧ live.seen = points ∧
            resultOf (marked.run [] held world).1 = .ok ctx ∧
            (marked.run [] held world).2.2 = unaborted.world) ∨
          ∃ before after, points = before ++ stop :: after ∧ abort ∈ before ∧
            ¬[abort, stop].Sublist before ∧ live.seen = before ++ [stop] ∧
            resultOf (marked.run [] held world).1 = .error .cancelled ∧
            (marked.run [] held world).2.2 = before.foldl apply world) := by
  intro unheld held unaborted points live
  have hcalm : unheld.Calm := ⟨rfl, rfl⟩
  have hsame : SameDeeds unaborted (marked.record [] unheld world) :=
    hmarked.sameDeeds hcalm [] world
  have hcut : CutBy false (marked.record [] unheld world) live :=
    marked.record_armed hcalm false [] world
  have hlive : marked.run [] held world = (live.ending, live.clock, live.world) :=
    (marked.record_eq_run [] held world).symm
  have hunaborted : d.processSuspending monitor event attributes unheld world =
      (resultOf unaborted.ending, unaborted.world) := by
    rw [processSuspending, ← Task.record_eq_run]
  obtain ⟨ctx, hfinished⟩ : ∃ ctx, unaborted.ending = .finished ctx :=
    ((d.task monitor event attributes).calm_record hcalm [] world).2.exists_eq_finished
  refine ⟨rfl, hsame.deeds, ctx, hunaborted.trans (by rw [hfinished]; rfl), ?_⟩
  rw [hlive]
  cases hcancels : cancels false points with
  | false =>
      obtain ⟨hending, _, hworld⟩ := hcut.kept hcancels
      refine .inl ⟨fun hlater => ?_, hcut.seen.trans (untilCancelled_eq_self hcancels), ?_,
        hworld.trans hsame.world⟩
      · exact absurd (hcancels.symm.trans (cancels_iff.mpr hlater)) nofun
      · rw [hending, hsame.ending, hfinished]
        rfl
  | true =>
      obtain ⟨before, after, hpoints, huntil, hused, hnone⟩ := exists_cut hcancels
      have hseen : live.seen = before ++ [stop] := hcut.seen.trans huntil
      refine .inr ⟨before, after, hpoints, hused.resolve_left nofun, fun hearlier => ?_, hseen,
        ?_, ?_⟩
      · exact absurd (hnone.symm.trans (cancels_iff.mpr hearlier)) nofun
      · rw [hcut.cancelled hcancels]
        rfl
      · change live.world = _
        rw [marked.world_record [] held world, hseen, List.foldl_append]
        rfl

/-- A route that is aborted and then waits, behind a filter and a handler that both log once more on
the way out. -/
def waitingRoute : List (Handler TextEvent Journal) :=
  [.filter Predicate.any fun ctx =>
      .recording (·.write "in") (.next ctx fun result => .recording (·.write "out") (.done result)),
    .after Predicate.any fun ctx => .recording (·.write "after") (.done ctx),
    .on Predicate.any fun ctx =>
      .recording (·.write "before")
        (.abort (.recording (·.write "meanwhile")
          (.pause .turn (.recording (·.write "late") (.done ctx)))))]

/-- The dispatcher of `waitingRoute`. -/
def aroundWaitingRoute : Dispatcher TextEvent Journal := ⟨.group Predicate.any waitingRoute⟩

/-- The route is cut where it waits, and nothing is logged on the way out. -/
theorem abort_cuts_waitingRoute :
    ofHandlers waitingRoute = .ok aroundWaitingRoute ∧
      let task := aroundWaitingRoute.task Monitor.silent ⟨"/"⟩ Attributes.empty
      let held : Clock := { now := 0, abortable := true }
      task.WithAborts task ∧
        (∃ before after, (task.record [] { now := 0 } {}).seen = before ++ stop :: after ∧
          abort ∈ before ∧ (task.record [] held {}).seen = before ++ [stop]) ∧
        resultOf (task.run [] held {}).1 = .error .cancelled ∧
        (task.run [] held {}).2.2.log = ["in", "before", "meanwhile"] ∧
        (task.run [] { now := 0 } {}).2.2.log =
          ["in", "before", "meanwhile", "late", "after", "out"] := by
  have hmarked :=
    Task.WithAborts.refl (aroundWaitingRoute.task Monitor.silent ⟨"/"⟩ Attributes.empty)
  obtain ⟨_, _, _, _, hkept | ⟨before, after, hpoints, hused, _, hseen, hresult, _⟩⟩ :=
    abort_cuts_at_next_stop aroundWaitingRoute Monitor.silent ⟨"/"⟩ Attributes.empty 0 {} hmarked
  · exact absurd (cancels_iff.mp rfl) hkept.1
  · exact ⟨rfl, hmarked, ⟨before, after, hpoints, hused, hseen⟩, hresult, rfl, rfl⟩

end Dispatcher

end RequestRouting
