import RequestRouting.Proofs.Lockstep

/-!
# Timelines

What happens in the run of a task, and when. The clock moves only while the task waits, so all that
happens between two stops happens at one time (`Timeline.Spans`). A run leaves the clock and the
world as its timeline says (`Task.clock_run`, `Task.world_run`).

A stage is a task that is about to run, within limits, on a clock, in a world. A stage reaches all
those that come up in its run (`Stage.Reaches`), also inside of parts that have limits of their own.
-/

namespace RequestRouting

variable {E W : Type}

/-- What can happen in a run. -/
inductive Incident (W : Type)
  /-- The world is changed, by a callback or by a report about one. -/
  | change (update : W → W)
  /-- The dispatch is asked to be aborted. -/
  | abort
  /-- A timer is set, for a sleep or for a limit of time. -/
  | timer (due : Nat)
  /-- The dispatch has stopped to wait. -/
  | stop

namespace Incident

def isStop : Incident W → Bool
  | stop => true
  | change _ | abort | timer _ => false

def isAbort : Incident W → Bool
  | abort => true
  | change _ | timer _ | stop => false

/-- The time for which a timer is set, if that is what happens. -/
def timer? : Incident W → Option Nat
  | timer due => some due
  | change _ | abort | stop => none

/-- The world after an incident. -/
def apply (world : W) : Incident W → W
  | change update => update world
  | abort | timer _ | stop => world

end Incident

/-- What happens in a run, in order, with the times. The time of a stop is that at which the wait is
over. -/
abbrev Timeline (W : Type) := List (Nat × Incident W)

namespace Timeline

/-- The times for which timers are set. -/
def timers (seen : Timeline W) : List Nat := seen.filterMap fun x => x.2.timer?

/-- The world after all that. -/
def apply (seen : Timeline W) (world : W) : W := seen.foldl (fun world x => x.2.apply world) world

/-- Whether the dispatch has been asked to be aborted. -/
def aborts (seen : Timeline W) : Bool := seen.any fun x => x.2.isAbort

/-- The timeline leads from a time to another. Only stops take time. -/
def Spans : Nat → Timeline W → Nat → Prop
  | now, [], later => later = now
  | now, (time, incident) :: seen, later =>
      now ≤ time ∧ (incident.isStop = false → time = now) ∧ Spans time seen later

/-- Whether something is a stop that lasts until a time or longer. -/
def late (due : Nat) (x : Nat × Incident W) : Bool := x.2.isStop && decide (due ≤ x.1)

/-- Whether there is a stop that lasts until a time or longer. -/
def overdue (due : Nat) (seen : Timeline W) : Bool := seen.any (late due)

/-- What happens before the first stop that lasts until a time or longer. -/
def inTime (due : Nat) (seen : Timeline W) : Timeline W := seen.takeWhile fun x => !late due x

variable {now middle later due time : Nat} {incident : Incident W} {first second seen : Timeline W}
  {world : W}

theorem timers_append : (first ++ second).timers = first.timers ++ second.timers :=
  List.filterMap_append

theorem apply_append : (first ++ second).apply world = second.apply (first.apply world) :=
  List.foldl_append

theorem aborts_append : (first ++ second).aborts = (first.aborts || second.aborts) :=
  List.any_append

theorem overdue_append :
    overdue due (first ++ second) = (overdue due first || overdue due second) :=
  List.any_append

theorem inTime_cons_of_late {x : Nat × Incident W} (hlate : late due x = true) :
    inTime due (x :: seen) = [] := by
  simp [inTime, hlate]

theorem inTime_cons {x : Nat × Incident W} (hlate : late due x = false) :
    inTime due (x :: seen) = x :: inTime due seen := by
  simp [inTime, hlate]

theorem inTime_append_of_overdue (hfirst : overdue due first = true) :
    inTime due (first ++ second) = inTime due first := by
  induction first with
  | nil => cases hfirst
  | cons x first ih =>
      rw [List.cons_append]
      cases hlate : late due x with
      | true => rw [inTime_cons_of_late hlate, inTime_cons_of_late hlate]
      | false =>
          have hrest : overdue due first = true := by simpa [overdue, hlate] using hfirst
          rw [inTime_cons hlate, inTime_cons hlate, ih hrest]

theorem inTime_append (hfirst : overdue due first = false) :
    inTime due (first ++ second) = first ++ inTime due second := by
  induction first with
  | nil => rfl
  | cons x first ih =>
      obtain ⟨hlate, hrest⟩ : late due x = false ∧ overdue due first = false := by
        simpa [overdue] using hfirst
      rw [List.cons_append, inTime_cons hlate, ih hrest]
      rfl

/-! ## Time -/

namespace Spans

theorem append (hfirst : first.Spans now middle) (hsecond : second.Spans middle later) :
    (first ++ second).Spans now later := by
  induction first generalizing now with
  | nil =>
      cases hfirst
      exact hsecond
  | cons x first ih => exact ⟨hfirst.1, hfirst.2.1, ih hfirst.2.2⟩

theorem le (hspans : seen.Spans now later) : now ≤ later := by
  induction seen generalizing now with
  | nil => exact Nat.le_of_eq (Eq.symm hspans)
  | cons x seen ih => exact Nat.le_trans hspans.1 (ih hspans.2.2)

theorem le_of_mem (hspans : seen.Spans now later) : ∀ x ∈ seen, now ≤ x.1 := by
  induction seen generalizing now with
  | nil => nofun
  | cons x seen ih =>
      rintro y (_ | ⟨_, hy⟩)
      · exact hspans.1
      · exact Nat.le_trans hspans.1 (ih hspans.2.2 y hy)

/-- Without a stop that is late, a timeline does not come to the time. -/
theorem lt_of_not_overdue (hspans : seen.Spans now later) (hnow : now < due)
    (hnone : overdue due seen = false) : later < due := by
  induction seen generalizing now with
  | nil =>
      cases hspans
      exact hnow
  | cons x seen ih =>
      obtain ⟨_, hsame, hlater⟩ := hspans
      obtain ⟨hlate, hrest⟩ : late due x = false ∧ overdue due seen = false := by
        simpa [overdue] using hnone
      refine ih hlater ?_ hrest
      cases hstop : x.2.isStop with
      | false => exact hsame hstop ▸ hnow
      | true => simpa [late, hstop] using hlate

/-- A timeline that starts at the time goes on without a stop, or has one that is late. -/
theorem eq_of_not_overdue (hspans : seen.Spans due later) (hnone : overdue due seen = false) :
    later = due := by
  induction seen with
  | nil => exact hspans
  | cons x seen ih =>
      obtain ⟨hle, hsame, hlater⟩ := hspans
      obtain ⟨hlate, hrest⟩ : late due x = false ∧ overdue due seen = false := by
        simpa [overdue] using hnone
      cases hstop : x.2.isStop with
      | false => exact ih (hsame hstop ▸ hlater) hrest
      | true => simp [late, hstop, hle] at hlate

/-- With a stop that is late it does. -/
theorem le_of_overdue (hspans : seen.Spans now later) (hlate : overdue due seen = true) :
    due ≤ later := by
  induction seen generalizing now with
  | nil => cases hlate
  | cons x seen ih =>
      obtain ⟨_, _, hlater⟩ := hspans
      cases hhere : late due x with
      | true =>
          obtain ⟨_, hdue⟩ : x.2.isStop = true ∧ due ≤ x.1 := by
            simpa [late] using hhere
          exact Nat.le_trans hdue hlater.le
      | false => exact ih hlater (by simpa [overdue, hhere] using hlate)

/-- What happens in time is what happens before the time, if there is any before it. -/
theorem inTime_eq_filter (hspans : seen.Spans now later) (hnow : now < due) :
    inTime due seen = seen.filter fun x => x.1 < due := by
  induction seen generalizing now with
  | nil => rfl
  | cons x seen ih =>
      obtain ⟨_, hsame, hlater⟩ := hspans
      cases hlate : late due x with
      | true =>
          obtain ⟨_, hdue⟩ : x.2.isStop = true ∧ due ≤ x.1 := by
            simpa [late] using hlate
          rw [inTime_cons_of_late hlate, eq_comm, List.filter_eq_nil_iff]
          rintro y (_ | ⟨_, hy⟩)
          · simpa using hdue
          · simpa using Nat.le_trans hdue (hlater.le_of_mem y hy)
      | false =>
          have hbefore : x.1 < due := by
            cases hstop : x.2.isStop with
            | false => exact hsame hstop ▸ hnow
            | true => simpa [late, hstop] using hlate
          rw [inTime_cons hlate, List.filter_cons_of_pos (by simpa using hbefore),
            ih hlater hbefore]

/-- If there is no time, it is what happens before the first stop. -/
theorem inTime_eq_takeWhile (hspans : seen.Spans due later) :
    inTime due seen = seen.takeWhile fun x => !x.2.isStop := by
  have hlate : ∀ x ∈ seen, late due x = x.2.isStop := fun x hx => by
    simp [late, hspans.le_of_mem x hx]
  clear hspans
  induction seen with
  | nil => rfl
  | cons x seen ih =>
      have hrest := ih fun y hy => hlate y (.tail _ hy)
      have hhere := hlate x List.mem_cons_self
      cases hstop : x.2.isStop with
      | true => rw [inTime_cons_of_late (hhere.trans hstop), List.takeWhile_cons_of_neg (by simpa)]
      | false =>
          rw [inTime_cons (hhere.trans hstop), List.takeWhile_cons_of_pos (by simpa), hrest]

end Spans

end Timeline

/-! ## Timelines of runs -/

/-- A part with a limit ends with a result, at its limit, at one of the limits around it, or because
the dispatch has been aborted. -/
@[elab_as_elim]
theorem Ending.limitCases {motive : Ending E → Prop} (finished : ∀ ctx, motive (.finished ctx))
    (expired : motive (.interrupted (.expired 0)))
    (outer : ∀ number, motive (.interrupted (.expired (number + 1))))
    (cancelled : motive (.interrupted .cancelled)) : ∀ ending, motive ending
  | .finished ctx => finished ctx
  | .interrupted (.expired 0) => expired
  | .interrupted (.expired (number + 1)) => outer number
  | .interrupted .cancelled => cancelled

namespace Clock

/-- The time at which a wait is over, whether the task goes on or not. -/
def timeAfter (clock : Clock) (deadlines : List Nat) (how : Pause) : Nat :=
  match clock.wait deadlines how with
  | .ok later => later.now
  | .error (_, later) => later.now

/-- What happens when a task waits. -/
def waiting (clock : Clock) (deadlines : List Nat) (how : Pause) : Timeline W :=
  match how with
  | .sleep ⟨0⟩ => []
  | .turn => [(clock.timeAfter deadlines how, .stop)]
  | .sleep span =>
      [(clock.now, .timer (clock.now + span.nanoseconds)),
        (clock.timeAfter deadlines how, .stop)]

/-- The clock after what has happened up to a time. -/
def after (clock : Clock) (seen : Timeline W) (now : Nat) : Clock :=
  { clock with now, aborted := clock.aborted || (clock.abortable && seen.aborts) }

end Clock

/-- What happens in the run of a task. -/
def Task.timeline (deadlines : List Nat) : Task E W → Clock → W → Timeline W
  | done _, _, _ => []
  | act update resume, clock, world =>
      (clock.now, .change update) :: (resume (update world)).timeline deadlines clock (update world)
  | pause how resume, clock, world =>
      clock.waiting deadlines how ++
        match clock.wait deadlines how with
        | .ok later => resume.timeline deadlines later world
        | .error _ => []
  | abort resume, clock, world =>
      (clock.now, .abort) :: resume.timeline deadlines
        { clock with aborted := clock.aborted || clock.abortable } world
  | limited limit part resume, clock, world =>
      let due := clock.now + limit.nanoseconds
      (clock.now, .timer due) :: (part.timeline (due :: deadlines) clock world ++
        match part.run (due :: deadlines) clock world with
        | (.finished ctx, later, after) => (resume (some ctx)).timeline deadlines later after
        | (.interrupted (.expired 0), later, after) => (resume none).timeline deadlines later after
        | (.interrupted _, _, _) => [])

namespace Clock

variable {clock later : Clock} {deadlines : List Nat} {how : Pause} {now time deadline : Nat}

/-! ### Deadlines -/

theorem lt_of_passed?_eq_none (hnone : passed? now deadlines = none) :
    ∀ deadline ∈ deadlines, now < deadline := by
  simpa [passed?] using hnone

theorem earliest?_eq_none_iff : earliest? deadlines = none ↔ deadlines = [] := by
  cases deadlines with
  | nil => simp [earliest?]
  | cons deadline outer => cases hlater : earliest? outer <;> simp [earliest?, hlater]

theorem mem_of_earliest? (hearliest : earliest? deadlines = some deadline) :
    deadline ∈ deadlines := by
  induction deadlines generalizing deadline with
  | nil => cases hearliest
  | cons first outer ih =>
      cases hlater : earliest? outer with
      | none => simp_all [earliest?]
      | some other =>
          obtain rfl : min first other = deadline := by
            simpa [earliest?, hlater] using hearliest
          rcases Nat.le_total first other with hle | hle
          · rw [Nat.min_eq_left hle]
            exact List.mem_cons_self
          · rw [Nat.min_eq_right hle]
            exact .tail _ (ih hlater)

theorem earliest?_le (hearliest : earliest? deadlines = some deadline) :
    ∀ other ∈ deadlines, deadline ≤ other := by
  induction deadlines generalizing deadline with
  | nil => nofun
  | cons first outer ih =>
      cases hlater : earliest? outer with
      | none =>
          rw [earliest?_eq_none_iff.mp hlater] at hearliest ⊢
          simp_all [earliest?]
      | some other =>
          obtain rfl : min first other = deadline := by
            simpa [earliest?, hlater] using hearliest
          rintro another (_ | ⟨_, hanother⟩)
          · exact Nat.min_le_left _ _
          · exact Nat.le_trans (Nat.min_le_right _ _) (ih hlater another hanother)

theorem exists_passed? (hmem : deadline ∈ deadlines) (hdue : deadline ≤ now) :
    ∃ number, passed? now deadlines = some number := by
  refine Option.isSome_iff_exists.mp ?_
  rw [passed?, List.findIdx?_isSome, List.any_eq_true]
  exact ⟨deadline, hmem, by simpa using hdue⟩

/-! ### Waits -/

/-- All that can come of a wait within limits. -/
inductive Waits (clock : Clock) (deadlines : List Nat) :
    Pause → Except (Interruption × Clock) Clock → Prop
  /-- There is nothing to wait for. -/
  | nothing : Waits clock deadlines (.sleep ⟨0⟩) (.ok clock)
  /-- A limit has passed before. -/
  | passed {how : Pause} {number : Nat} (hhow : how ≠ .sleep ⟨0⟩)
      (hpassed : passed? clock.now deadlines = some number) :
      Waits clock deadlines how (.error (.expired number, clock))
  | cancelled {how : Pause} (hhow : how ≠ .sleep ⟨0⟩)
      (hnone : ∀ deadline ∈ deadlines, clock.now < deadline) (haborted : clock.aborted = true) :
      Waits clock deadlines how (.error (.cancelled, clock))
  | turn (hnone : ∀ deadline ∈ deadlines, clock.now < deadline) (hcalm : clock.aborted = false) :
      Waits clock deadlines .turn (.ok clock)
  /-- The sleep is over before any limit. -/
  | slept {span : Duration} (hspan : 0 < span.nanoseconds)
      (hnone : ∀ deadline ∈ deadlines, clock.now < deadline) (hcalm : clock.aborted = false)
      (htime : ∀ deadline ∈ deadlines, clock.now + span.nanoseconds ≤ deadline) :
      Waits clock deadlines (.sleep span) (.ok { clock with now := clock.now + span.nanoseconds })
  /-- The earliest limit passes during the sleep. -/
  | expired {span : Duration} {deadline number : Nat} (hspan : 0 < span.nanoseconds)
      (hnone : ∀ deadline ∈ deadlines, clock.now < deadline) (hcalm : clock.aborted = false)
      (hmem : deadline ∈ deadlines) (hearliest : ∀ other ∈ deadlines, deadline ≤ other)
      (hbefore : deadline < clock.now + span.nanoseconds)
      (hpassed : passed? deadline deadlines = some number) :
      Waits clock deadlines (.sleep span)
        (.error (.expired number, { clock with now := deadline }))

theorem waits (clock : Clock) (deadlines : List Nat) (how : Pause) :
    clock.Waits deadlines how (clock.wait deadlines how) := by
  by_cases hhow : how = .sleep ⟨0⟩
  · subst hhow
    exact .nothing
  cases hpassed : passed? clock.now deadlines with
  | some number => simpa [wait, hhow, hpassed] using Waits.passed hhow hpassed
  | none =>
      have hnone := lt_of_passed?_eq_none hpassed
      cases haborted : clock.aborted with
      | true => simpa [wait, hhow, hpassed, haborted] using Waits.cancelled hhow hnone haborted
      | false =>
          match how with
          | .turn => simpa [wait, hpassed, haborted] using Waits.turn hnone haborted
          | .sleep ⟨span + 1⟩ =>
              have hspan : 0 < (⟨span + 1⟩ : Duration).nanoseconds := Nat.succ_pos span
              cases hearliest : earliest? deadlines with
              | none =>
                  obtain rfl := earliest?_eq_none_iff.mp hearliest
                  simpa [wait, hpassed, haborted, hearliest] using
                    Waits.slept hspan hnone haborted nofun
              | some deadline =>
                  have hmem := mem_of_earliest? hearliest
                  by_cases htime : clock.now + (span + 1) ≤ deadline
                  · simpa [wait, hpassed, haborted, hearliest, htime] using
                      Waits.slept hspan hnone haborted fun other hother =>
                        Nat.le_trans htime (earliest?_le hearliest other hother)
                  · obtain ⟨number, hnumber⟩ := exists_passed? hmem (Nat.le_refl deadline)
                    simpa [wait, hpassed, haborted, hearliest, htime, hnumber] using
                      Waits.expired hspan hnone haborted hmem (earliest?_le hearliest)
                        (Nat.lt_of_not_le htime) hnumber

theorem passed?_eq_none (hnone : ∀ deadline ∈ deadlines, now < deadline) :
    passed? now deadlines = none := by
  simpa [passed?] using hnone

theorem earliest?_eq_some (hmem : deadline ∈ deadlines)
    (hle : ∀ other ∈ deadlines, deadline ≤ other) : earliest? deadlines = some deadline := by
  cases hearliest : earliest? deadlines with
  | none =>
      rw [earliest?_eq_none_iff.mp hearliest] at hmem
      cases hmem
  | some first =>
      exact congrArg some (Nat.le_antisymm (earliest?_le hearliest deadline hmem)
        (hle first (mem_of_earliest? hearliest)))

/-- Nothing else can. -/
theorem Waits.wait_eq {result : Except (Interruption × Clock) Clock}
    (hwaits : clock.Waits deadlines how result) : clock.wait deadlines how = result := by
  cases hwaits with
  | nothing => rfl
  | passed hhow hpassed => simp [wait, hpassed]
  | cancelled hhow hnone haborted => simp [wait, passed?_eq_none hnone, haborted]
  | turn hnone hcalm => simp [wait, passed?_eq_none hnone, hcalm]
  | @slept span hspan hnone hcalm htime =>
      have hhow : span ≠ ⟨0⟩ := by
        rintro rfl
        cases hspan
      cases hearliest : earliest? deadlines with
      | none => simp [wait, hhow, passed?_eq_none hnone, hcalm, hearliest]
      | some deadline =>
          simp [wait, hhow, passed?_eq_none hnone, hcalm, hearliest,
            htime deadline (mem_of_earliest? hearliest)]
  | @expired span deadline number hspan hnone hcalm hmem hle hbefore hpassed =>
      have hhow : span ≠ ⟨0⟩ := by
        rintro rfl
        cases hspan
      simp [wait, hhow, passed?_eq_none hnone, hcalm, earliest?_eq_some hmem hle,
        Nat.not_le_of_lt hbefore, hpassed]

/-- Waiting moves the clock on and changes nothing else of it. -/
theorem wait_result (clock : Clock) (deadlines : List Nat) (how : Pause) :
    match clock.wait deadlines how with
    | .ok later => later = { clock with now := clock.timeAfter deadlines how }
    | .error (_, later) => later = { clock with now := clock.timeAfter deadlines how } := by
  have hwaits := clock.waits deadlines how
  unfold timeAfter
  generalize clock.wait deadlines how = result at hwaits ⊢
  cases hwaits <;> rfl

theorem le_timeAfter (clock : Clock) (deadlines : List Nat) (how : Pause) :
    clock.now ≤ clock.timeAfter deadlines how := by
  have hwaits := clock.waits deadlines how
  unfold timeAfter
  generalize clock.wait deadlines how = result at hwaits ⊢
  cases hwaits with
  | nothing | passed | cancelled | turn => exact Nat.le_refl _
  | slept => exact Nat.le_add_right _ _
  | expired _ hnone _ hmem => exact Nat.le_of_lt (hnone _ hmem)

theorem waiting_spans (clock : Clock) (deadlines : List Nat) (how : Pause) :
    (clock.waiting deadlines how : Timeline W).Spans clock.now
      (clock.timeAfter deadlines how) := by
  have hle := clock.le_timeAfter deadlines how
  match how with
  | .sleep ⟨0⟩ => exact rfl
  | .turn => exact ⟨hle, nofun, rfl⟩
  | .sleep ⟨span + 1⟩ => exact ⟨Nat.le_refl _, fun _ => rfl, hle, nofun, rfl⟩

@[simp]
theorem after_nil (clock : Clock) : clock.after ([] : Timeline W) clock.now = clock := by
  simp [after, Timeline.aborts]

theorem after_append {first second : Timeline W} (hlater : later = clock.after first now)
    (time : Nat) : later.after second time = clock.after (first ++ second) time := by
  subst hlater
  simp only [after, Timeline.aborts_append, Bool.and_or_distrib_left, Bool.or_assoc]

/-- Nothing but its time changes about a clock if the handle is not used. -/
theorem after_of_not_aborts (clock : Clock) {seen : Timeline W} (hnone : seen.aborts = false)
    (later : Nat) : clock.after seen later = { clock with now := later } := by
  simp [after, hnone]

theorem waiting_aborts (clock : Clock) (deadlines : List Nat) (how : Pause) :
    (clock.waiting deadlines how : Timeline W).aborts = false := by
  match how with
  | .sleep ⟨0⟩ | .turn | .sleep ⟨span + 1⟩ => rfl

theorem waiting_apply (clock : Clock) (deadlines : List Nat) (how : Pause) (world : W) :
    (clock.waiting deadlines how : Timeline W).apply world = world := by
  match how with
  | .sleep ⟨0⟩ | .turn | .sleep ⟨span + 1⟩ => rfl

end Clock

namespace Task

/-- A run leaves the world as its timeline says. -/
theorem world_run (task : Task E W) (deadlines : List Nat) (clock : Clock) (world : W) :
    (task.run deadlines clock world).2.2 = (task.timeline deadlines clock world).apply world := by
  induction task generalizing deadlines clock world with
  | done ctx => rfl
  | act update resume ih => exact ih (update world) deadlines clock (update world)
  | abort resume ih => exact ih deadlines _ world
  | pause how resume ih =>
      rw [run, timeline, Timeline.apply_append, Clock.waiting_apply]
      cases clock.wait deadlines how with
      | ok later => exact ih deadlines later world
      | error stopped => rfl
  | limited limit part resume ihPart ihResume =>
      have hpart := ihPart ((clock.now + limit.nanoseconds) :: deadlines) clock world
      rw [run, timeline]
      generalize part.run _ clock world = inner at hpart ⊢
      obtain ⟨ending, later, after⟩ := inner
      dsimp only at hpart
      subst hpart
      cases ending using Ending.limitCases with
      | finished ctx =>
          exact (ihResume (some ctx) deadlines later _).trans Timeline.apply_append.symm
      | expired => exact (ihResume none deadlines later _).trans Timeline.apply_append.symm
      | outer | cancelled =>
          exact (congrArg (Timeline.apply · world) (List.append_nil _)).symm

/-- A timeline leads to the time at which the run ends. -/
theorem timeline_spans (task : Task E W) (deadlines : List Nat) (clock : Clock) (world : W) :
    (task.timeline deadlines clock world).Spans clock.now
      (task.run deadlines clock world).2.1.now := by
  induction task generalizing deadlines clock world with
  | done ctx => exact rfl
  | act update resume ih =>
      exact ⟨Nat.le_refl _, fun _ => rfl, ih (update world) deadlines clock (update world)⟩
  | abort resume ih =>
      exact ⟨Nat.le_refl _, fun _ => rfl,
        ih deadlines { clock with aborted := clock.aborted || clock.abortable } world⟩
  | pause how resume ih =>
      have hwaiting : (clock.waiting deadlines how : Timeline W).Spans _ _ :=
        clock.waiting_spans deadlines how
      rw [run, timeline]
      refine hwaiting.append ?_
      unfold Clock.timeAfter
      cases clock.wait deadlines how with
      | ok later => exact ih deadlines later world
      | error stopped => exact rfl
  | limited limit part resume ihPart ihResume =>
      have hpart := ihPart ((clock.now + limit.nanoseconds) :: deadlines) clock world
      rw [run, timeline]
      refine ⟨Nat.le_refl _, fun _ => rfl, ?_⟩
      generalize part.run _ clock world = inner at hpart ⊢
      obtain ⟨ending, later, after⟩ := inner
      cases ending using Ending.limitCases with
      | finished ctx => exact hpart.append (ihResume (some ctx) deadlines later after)
      | expired => exact hpart.append (ihResume none deadlines later after)
      | outer | cancelled => exact hpart.append rfl

/-- A run leaves the clock as its timeline says. -/
theorem clock_run (task : Task E W) (deadlines : List Nat) (clock : Clock) (world : W) :
    (task.run deadlines clock world).2.1 =
      clock.after (task.timeline deadlines clock world)
        (task.run deadlines clock world).2.1.now := by
  induction task generalizing deadlines clock world with
  | done ctx => exact (clock.after_nil).symm
  | act update resume ih => exact ih (update world) deadlines clock (update world)
  | abort resume ih =>
      have hused : { clock with aborted := clock.aborted || clock.abortable } =
          clock.after ([(clock.now, .abort)] : Timeline W) clock.now := by
        simp [Clock.after, Timeline.aborts, Incident.isAbort]
      exact (ih deadlines _ world).trans (Clock.after_append hused _)
  | pause how resume ih =>
      have hresult := clock.wait_result deadlines how
      have hwaiting : ({ clock with now := clock.timeAfter deadlines how } : Clock) =
          clock.after (clock.waiting deadlines how : Timeline W) (clock.timeAfter deadlines how) :=
        (clock.after_of_not_aborts (clock.waiting_aborts deadlines how) _).symm
      rw [run, timeline]
      generalize clock.wait deadlines how = result at hresult ⊢
      cases result with
      | ok later =>
          exact (ih deadlines later world).trans (Clock.after_append (hresult.trans hwaiting) _)
      | error stopped =>
          rw [List.append_nil]
          dsimp only at hresult ⊢
          rw [hresult]
          exact hwaiting
  | limited limit part resume ihPart ihResume =>
      have hpart := ihPart ((clock.now + limit.nanoseconds) :: deadlines) clock world
      have htimer (seen : Timeline W) (later : Nat) :
          clock.after ((clock.now, .timer (clock.now + limit.nanoseconds)) :: seen) later =
            clock.after seen later := rfl
      rw [run, timeline, htimer]
      generalize part.run _ clock world = inner at hpart ⊢
      obtain ⟨ending, later, after⟩ := inner
      cases ending using Ending.limitCases with
      | finished ctx =>
          exact (ihResume (some ctx) deadlines later after).trans (Clock.after_append hpart _)
      | expired => exact (ihResume none deadlines later after).trans (Clock.after_append hpart _)
      | outer | cancelled =>
          exact hpart.trans (congrArg (clock.after · later.now) (List.append_nil _).symm)

end Task

/-! ## Stages -/

/-- A task that is about to run. -/
structure Stage (E W : Type) where
  /-- The limits around it, innermost first. -/
  deadlines : List Nat := []
  task : Task E W
  clock : Clock
  world : W

namespace Stage

/-- The result of the run. -/
def run (s : Stage E W) : Ending E × Clock × W := s.task.run s.deadlines s.clock s.world

/-- What happens in the run. -/
def timeline (s : Stage E W) : Timeline W := s.task.timeline s.deadlines s.clock s.world

/-- The run of the first stage comes to the second one. The timeline is what happens on the way. -/
inductive Reaches : Stage E W → Timeline W → Stage E W → Prop
  | refl (s : Stage E W) : Reaches s [] s
  | act {deadlines : List Nat} {update : W → W} {resume : W → Task E W} {clock : Clock} {world : W}
      {seen : Timeline W} {s : Stage E W}
      (hlater : Reaches ⟨deadlines, resume (update world), clock, update world⟩ seen s) :
      Reaches ⟨deadlines, .act update resume, clock, world⟩
        ((clock.now, .change update) :: seen) s
  | pause {deadlines : List Nat} {how : Pause} {resume : Task E W} {clock later : Clock} {world : W}
      {seen : Timeline W} {s : Stage E W} (hwait : clock.wait deadlines how = .ok later)
      (hlater : Reaches ⟨deadlines, resume, later, world⟩ seen s) :
      Reaches ⟨deadlines, .pause how resume, clock, world⟩ (clock.waiting deadlines how ++ seen) s
  | abort {deadlines : List Nat} {resume : Task E W} {clock : Clock} {world : W}
      {seen : Timeline W} {s : Stage E W}
      (hlater : Reaches
        ⟨deadlines, resume, { clock with aborted := clock.aborted || clock.abortable }, world⟩
        seen s) :
      Reaches ⟨deadlines, .abort resume, clock, world⟩ ((clock.now, .abort) :: seen) s
  /-- Into a part with a limit. -/
  | part {deadlines : List Nat} {limit : Duration} {part : Task E W}
      {resume : Option (Context E) → Task E W} {clock : Clock} {world : W} {seen : Timeline W}
      {s : Stage E W}
      (hlater : Reaches ⟨(clock.now + limit.nanoseconds) :: deadlines, part, clock, world⟩ seen s) :
      Reaches ⟨deadlines, .limited limit part resume, clock, world⟩
        ((clock.now, .timer (clock.now + limit.nanoseconds)) :: seen) s
  /-- Past a part that has come to its end. -/
  | finished {deadlines : List Nat} {limit : Duration} {part : Task E W}
      {resume : Option (Context E) → Task E W} {clock later : Clock} {world after : W}
      {ctx : Context E} {seen : Timeline W} {s : Stage E W}
      (hpart : part.run ((clock.now + limit.nanoseconds) :: deadlines) clock world =
        (.finished ctx, later, after))
      (hlater : Reaches ⟨deadlines, resume (some ctx), later, after⟩ seen s) :
      Reaches ⟨deadlines, .limited limit part resume, clock, world⟩
        ((clock.now, .timer (clock.now + limit.nanoseconds)) ::
          (part.timeline ((clock.now + limit.nanoseconds) :: deadlines) clock world ++ seen)) s
  /-- Past a part that has been dropped. -/
  | expired {deadlines : List Nat} {limit : Duration} {part : Task E W}
      {resume : Option (Context E) → Task E W} {clock later : Clock} {world after : W}
      {seen : Timeline W} {s : Stage E W}
      (hpart : part.run ((clock.now + limit.nanoseconds) :: deadlines) clock world =
        (.interrupted (.expired 0), later, after))
      (hlater : Reaches ⟨deadlines, resume none, later, after⟩ seen s) :
      Reaches ⟨deadlines, .limited limit part resume, clock, world⟩
        ((clock.now, .timer (clock.now + limit.nanoseconds)) ::
          (part.timeline ((clock.now + limit.nanoseconds) :: deadlines) clock world ++ seen)) s

namespace Reaches

variable {s t u : Stage E W} {first second seen : Timeline W}

theorem trans (hfirst : s.Reaches first t) (hsecond : t.Reaches second u) :
    s.Reaches (first ++ second) u := by
  induction hfirst with
  | refl => exact hsecond
  | act _ ih => exact .act (ih hsecond)
  | pause hwait _ ih =>
      rw [List.append_assoc]
      exact .pause hwait (ih hsecond)
  | abort _ ih => exact .abort (ih hsecond)
  | part _ ih => exact .part (ih hsecond)
  | finished hpart _ ih =>
      rw [List.cons_append, List.append_assoc]
      exact .finished hpart (ih hsecond)
  | expired hpart _ ih =>
      rw [List.cons_append, List.append_assoc]
      exact .expired hpart (ih hsecond)

end Reaches

end Stage

/-! ## Stages of a dispatch -/

/-- A chain comes to the handlers behind one that is called last, which then goes on from their
result. -/
theorem Suspending.reaches_behind_after [Routable E] (monitor : Monitor E W) {p : Predicate E}
    {callback : Callback E W} {rest : List (Handler E W)} {address : Address} {index : Nat}
    {ctx : Context E} (hattached : ctx.position.attached)
    (hgoes : ctx.goesInto index (.after p callback)) (onward : Context E → Task E W)
    (deadlines : List Nat) (clock : Clock) (world : W) :
    (⟨deadlines, (walk monitor (.after p callback :: rest) address index ctx).bind onward, clock,
        world⟩ : Stage E W).Reaches
      [(clock.now, .change (monitor (.entered (address ++ [index]))))]
      ⟨deadlines, (walk monitor rest address (index + 1) (ctx.select p index)).bind fun result =>
          (invoke monitor (address ++ [index]) callback (walk monitor rest address (index + 1))
            .done .done result).bind fun returned =>
              .doing (monitor (.left (address ++ [index]))) (onward returned),
        clock, monitor (.entered (address ++ [index])) world⟩ := by
  have htask : (walk monitor (.after p callback :: rest) address index ctx).bind onward =
      .doing (monitor (.entered (address ++ [index])))
        ((walk monitor rest address (index + 1) (ctx.select p index)).bind fun result =>
          (invoke monitor (address ++ [index]) callback (walk monitor rest address (index + 1))
            .done .done result).bind fun returned =>
              .doing (monitor (.left (address ++ [index]))) (onward returned)) := by
    rw [walk, if_pos hattached, if_pos hgoes]
    refine congrArg (Task.doing _) ?_
    rw [Task.bind_assoc]
    exact Task.bind_assoc _ _ _
  rw [htask]
  exact .act (.refl _)

namespace Dispatcher

variable [Routable E]

/-- The stage at which a dispatch begins. -/
def stage (d : Dispatcher E W) (monitor : Monitor E W) (event : E) (attributes : Attributes)
    (clock : Clock) (world : W) : Stage E W :=
  ⟨[], d.task monitor event attributes, clock, world⟩

variable (d : Dispatcher E W) (monitor : Monitor E W) (event : E) (attributes : Attributes)

/-- How a dispatch goes on after its outermost chain. -/
def afterChain (monitor : Monitor E W) (position : Position) (result : Context E) : Task E W :=
  (Suspending.walk monitor [] [] 1 (result.leave position)).bind fun ctx =>
    .doing (monitor (.left [0])) (.done ctx)

/-- A dispatch begins with its outermost chain. -/
theorem reaches_chain {handlers : List (Handler E W)}
    (hroot : d.root = .group Predicate.any handlers) (clock : Clock) (world : W) :
    (d.stage monitor event attributes clock world).Reaches
      [(clock.now, .change (monitor (.dispatching (Routable.path event)))),
        (clock.now, .change (monitor (.entered [0])))]
      ⟨[], (Suspending.walk monitor handlers [0] 0
          ((startContext event attributes).select Predicate.any 0).enter).bind
            (afterChain monitor ((startContext event attributes).select Predicate.any 0).position),
        clock, monitor (.entered [0]) (monitor (.dispatching (Routable.path event)) world)⟩ := by
  have htask : d.task monitor event attributes =
      .doing (monitor (.dispatching (Routable.path event))) (.doing (monitor (.entered [0]))
        ((Suspending.walk monitor handlers [0] 0
          ((startContext event attributes).select Predicate.any 0).enter).bind
            (afterChain monitor
              ((startContext event attributes).select Predicate.any 0).position))) := by
    rw [task, hroot]
    refine congrArg (Task.doing _) (congrArg (Task.doing _) ?_)
    exact Task.bind_assoc _ _ _
  rw [stage, htask]
  exact .act (.act (.refl _))

end Dispatcher

end RequestRouting
