import RequestRouting.Proofs.Timeline
import RequestRouting.TimeLimit
import RequestRouting.TextEvent

/-!
# What a limit of time does

A part of a task that makes it in time runs as it would without the limit. One that does not runs up
to the first stop at which its time is over, and is dropped there. Here a run is compared with the
same run with one more limit (`Task.run_insert`, `Task.run_insert_of_overdue`), which stands
somewhere among the others: the part can have limits of its own, and others can stand around it.

From this follows what the filter `Handler.timeLimit` does in a dispatch
(`Dispatcher.timeLimit_transparent_or_atomic`).
-/

namespace RequestRouting

variable {E W : Type}

open Timeline (overdue inTime late)

/-- The same interruption with one more limit outside of so many. -/
def Interruption.past (place : Nat) : Interruption → Interruption
  | expired number => expired (if number < place then number else number + 1)
  | cancelled => cancelled

/-- The same ending with one more limit outside of so many. -/
def Ending.past (place : Nat) : Ending E → Ending E
  | finished ctx => finished ctx
  | interrupted cause => interrupted (cause.past place)

/-- Inside one limit more, the numbers are one higher. -/
theorem Ending.past_succ {place number : Nat} :
    (interrupted (.expired (number + 1)) : Ending E).past (place + 1) =
      .interrupted (.expired ((if number < place then number else number + 1) + 1)) := by
  by_cases hlt : number < place <;> simp [past, Interruption.past, hlt]

/-- A limit at `due` stands outside the limits `inner` and inside the limits `outer`. It has not
passed, or passes right at the beginning. No other deadline ties with it. -/
structure Apart (due : Nat) (inner outer : List Nat) (now : Nat) (seen : Timeline W) : Prop where
  ahead : now < due ∨ now = due ∧ ∀ deadline ∈ inner, due < deadline
  inner : due ∉ inner
  outer : due ∉ outer
  timers : due ∉ seen.timers

namespace Clock

variable {clock : Clock} {inner outer : List Nat} {how : Pause} {now due : Nat} {seen : Timeline W}

theorem passed?_insert (hdue : now < due) :
    passed? now (inner ++ due :: outer) =
      (passed? now (inner ++ outer)).map fun number =>
        if number < inner.length then number else number + 1 := by
  unfold passed?
  rw [List.findIdx?_append, List.findIdx?_append, List.findIdx?_cons,
    if_neg (by simpa using hdue)]
  cases hinner : inner.findIdx? (· ≤ now) with
  | some number =>
      have hlt : number < inner.length := (List.findIdx?_eq_some_iff_getElem.mp hinner).1
      simp [hlt]
  | none =>
      cases outer.findIdx? (· ≤ now) with
      | none => rfl
      | some number => simp [Nat.add_right_comm]

theorem passed?_here (hinner : ∀ deadline ∈ inner, now < deadline) (hdue : due ≤ now) :
    passed? now (inner ++ due :: outer) = some inner.length := by
  have hnone : inner.findIdx? (· ≤ now) = none := by simpa using hinner
  unfold passed?
  rw [List.findIdx?_append, hnone, List.findIdx?_cons, if_pos (by simpa using hdue)]
  simp

theorem forall_mem_insert {P : Nat → Prop} (hdue : P due)
    (hothers : ∀ deadline ∈ inner ++ outer, P deadline) :
    ∀ deadline ∈ inner ++ due :: outer, P deadline := by
  grind

/-- A wait that is over before the limit is as it would be without it. -/
theorem wait_insert (hbefore : clock.timeAfter (inner ++ outer) how < due) :
    clock.wait (inner ++ due :: outer) how =
      match clock.wait (inner ++ outer) how with
      | .ok later => .ok later
      | .error (cause, later) => .error (cause.past inner.length, later) := by
  have hwaits := clock.waits (inner ++ outer) how
  have hnow : clock.now < due := Nat.lt_of_le_of_lt (clock.le_timeAfter _ _) hbefore
  unfold timeAfter at hbefore
  generalize clock.wait (inner ++ outer) how = result at hwaits hbefore ⊢
  cases hwaits with
  | nothing => rfl
  | passed hhow hpassed =>
      exact (Waits.passed hhow (by rw [passed?_insert hnow, hpassed]; rfl)).wait_eq
  | cancelled hhow hnone haborted =>
      exact (Waits.cancelled hhow (forall_mem_insert hnow hnone) haborted).wait_eq
  | turn hnone hcalm => exact (Waits.turn (forall_mem_insert hnow hnone) hcalm).wait_eq
  | slept hspan hnone hcalm htime =>
      exact (Waits.slept hspan (forall_mem_insert hnow hnone) hcalm
        (forall_mem_insert (Nat.le_of_lt hbefore) htime)).wait_eq
  | expired hspan hnone hcalm hmem hle hearly hpassed =>
      exact (Waits.expired hspan (forall_mem_insert hnow hnone) hcalm (by grind)
        (forall_mem_insert (Nat.le_of_lt hbefore) hle) hearly
        (by rw [passed?_insert hbefore, hpassed]; rfl)).wait_eq

theorem mem_timers_waiting {deadlines : List Nat} {span : Duration}
    (hspan : 0 < span.nanoseconds) :
    clock.now + span.nanoseconds ∈
      (clock.waiting deadlines (.sleep span) : Timeline W).timers := by
  match span with
  | ⟨span + 1⟩ => exact List.mem_cons_self

/-- A wait that is not over by then ends with the limit. -/
theorem wait_insert_of_late (hhow : how ≠ .sleep ⟨0⟩)
    (hapart : Apart due inner outer clock.now
      (clock.waiting (inner ++ outer) how ++ seen : Timeline W))
    (hlate : due ≤ clock.timeAfter (inner ++ outer) how) :
    clock.wait (inner ++ due :: outer) how =
      .error (.expired inner.length, { clock with now := due }) := by
  have hwaits := clock.waits (inner ++ outer) how
  obtain ⟨hnow | ⟨rfl, hahead⟩, hinner, houter, htimers⟩ := hapart
  · have hexpired {span : Duration} (hspan : 0 < span.nanoseconds)
        (hnone : ∀ deadline ∈ inner ++ outer, clock.now < deadline)
        (hcalm : clock.aborted = false)
        (hothers : ∀ deadline ∈ inner ++ outer, due < deadline)
        (hbefore : due < clock.now + span.nanoseconds) :
        clock.wait (inner ++ due :: outer) (.sleep span) =
          .error (.expired inner.length, { clock with now := due }) :=
      (Waits.expired hspan (forall_mem_insert hnow hnone) hcalm (by simp)
        (forall_mem_insert (Nat.le_refl due) fun other hother =>
          Nat.le_of_lt (hothers other hother))
        hbefore (passed?_here (fun deadline hmem => hothers deadline (by simp [hmem]))
          (Nat.le_refl due))).wait_eq
    unfold timeAfter at hlate
    generalize clock.wait (inner ++ outer) how = result at hwaits hlate
    cases hwaits with
    | nothing => exact absurd rfl hhow
    | passed | cancelled | turn => exact absurd hlate (Nat.not_le_of_lt hnow)
    | @slept span hspan hnone hcalm htime =>
        have hne : clock.now + span.nanoseconds ≠ due := by
          rintro rfl
          exact htimers (Timeline.timers_append ▸ List.mem_append_left _ (mem_timers_waiting hspan))
        have hlt : due < clock.now + span.nanoseconds := Nat.lt_of_le_of_ne hlate hne.symm
        exact hexpired hspan hnone hcalm
          (fun other hother => Nat.lt_of_lt_of_le hlt (htime other hother)) hlt
    | @expired span deadline number hspan hnone hcalm hmem hle hbefore hpassed =>
        have hne : deadline ≠ due := by grind
        have hlt : due < deadline := Nat.lt_of_le_of_ne hlate hne.symm
        exact hexpired hspan hnone hcalm
          (fun other hother => Nat.lt_of_lt_of_le hlt (hle other hother))
          (Nat.lt_trans hlt hbefore)
  · exact (Waits.passed hhow (passed?_here hahead (Nat.le_refl _))).wait_eq

/-- What happens in a wait that is over before the limit. -/
theorem waiting_insert (hbefore : clock.timeAfter (inner ++ outer) how < due) :
    (clock.waiting (inner ++ due :: outer) how : Timeline W) =
      clock.waiting (inner ++ outer) how := by
  have hsame : clock.timeAfter (inner ++ due :: outer) how =
      clock.timeAfter (inner ++ outer) how := by
    rw [timeAfter, wait_insert hbefore, timeAfter]
    cases clock.wait (inner ++ outer) how <;> rfl
  unfold waiting
  rw [hsame]

/-- What happens in a wait that is not over by then. -/
theorem waiting_insert_of_late (hhow : how ≠ .sleep ⟨0⟩)
    (hapart : Apart due inner outer clock.now
      (clock.waiting (inner ++ outer) how ++ seen : Timeline W))
    (hlate : due ≤ clock.timeAfter (inner ++ outer) how) :
    (clock.waiting (inner ++ due :: outer) how : Timeline W) =
      inTime due (clock.waiting (inner ++ outer) how) ++ [(due, .stop)] := by
  have hstop : late due (clock.timeAfter (inner ++ outer) how, (.stop : Incident W)) = true := by
    simpa [late, Incident.isStop] using hlate
  have hdue : clock.timeAfter (inner ++ due :: outer) how = due := by
    rw [timeAfter, wait_insert_of_late hhow hapart hlate]
  rcases how with _ | ⟨_ | span⟩
  case turn =>
      simp only [waiting]
      rw [hdue, Timeline.inTime_cons_of_late hstop]
      rfl
  case sleep.zero => exact absurd rfl hhow
  case sleep.succ =>
      simp only [waiting]
      rw [hdue, Timeline.inTime_cons rfl, Timeline.inTime_cons_of_late hstop]
      rfl

theorem overdue_waiting {deadlines : List Nat} (hhow : how ≠ .sleep ⟨0⟩) :
    overdue due (clock.waiting deadlines how : Timeline W) =
      decide (due ≤ clock.timeAfter deadlines how) := by
  match how with
  | .sleep ⟨0⟩ => exact absurd rfl hhow
  | .turn => simp [waiting, overdue, late, Incident.isStop]
  | .sleep ⟨span + 1⟩ => simp [waiting, overdue, late, Incident.isStop]

end Clock

namespace Apart

variable {due now later : Nat} {inner outer : List Nat} {first second : Timeline W}

/-- What comes first. -/
theorem left (hapart : Apart due inner outer now (first ++ second)) :
    Apart due inner outer now first :=
  ⟨hapart.ahead, hapart.inner, hapart.outer, fun hmem =>
    hapart.timers (Timeline.timers_append ▸ List.mem_append_left _ hmem)⟩

/-- What comes later, if it is still in time. -/
theorem right (hapart : Apart due inner outer now (first ++ second))
    (hspans : first.Spans now later) (hnone : overdue due first = false) :
    Apart due inner outer later second where
  ahead := by
    rcases hapart.ahead with hnow | ⟨rfl, hahead⟩
    · exact .inl (hspans.lt_of_not_overdue hnow hnone)
    · exact .inr ⟨hspans.eq_of_not_overdue hnone, hahead⟩
  inner := hapart.inner
  outer := hapart.outer
  timers hmem := hapart.timers (Timeline.timers_append ▸ List.mem_append_right _ hmem)

/-- No timer that is set ties with the limit. -/
theorem ne_timer {deadline : Nat} {seen : Timeline W}
    (hapart : Apart due inner outer now ((now, .timer deadline) :: seen)) : due ≠ deadline :=
  fun heq => hapart.timers (heq ▸ List.mem_cons_self)

/-- Inside a part with another limit. -/
theorem cons {deadline : Nat} {seen : Timeline W} (hle : now ≤ deadline)
    (hapart : Apart due inner outer now ((now, .timer deadline) :: seen)) :
    Apart due (deadline :: inner) outer now seen where
  ahead := by
    rcases hapart.ahead with hnow | ⟨rfl, hahead⟩
    · exact .inl hnow
    · have hlt := Nat.lt_of_le_of_ne hle hapart.ne_timer
      exact .inr ⟨rfl, List.forall_mem_cons.mpr ⟨hlt, hahead⟩⟩
  inner := by simp [hapart.ne_timer, hapart.inner]
  outer := hapart.outer
  timers hmem := hapart.timers (.tail _ hmem)

/-- Past something that is neither a timer nor a stop. -/
theorem tail {x : Nat × Incident W} {seen : Timeline W}
    (hapart : Apart due inner outer now (x :: seen)) : Apart due inner outer now seen where
  ahead := hapart.ahead
  inner := hapart.inner
  outer := hapart.outer
  timers hmem := hapart.timers <| by
    obtain ⟨y, hy, hdue⟩ := List.mem_filterMap.mp hmem
    exact List.mem_filterMap.mpr ⟨y, .tail _ hy, hdue⟩

end Apart

namespace Task

/-- A run that is in time runs as it would without the limit. -/
theorem run_insert (task : Task E W) (inner : List Nat) {outer : List Nat} {due : Nat}
    {clock : Clock} {world : W}
    (hapart : Apart due inner outer clock.now (task.timeline (inner ++ outer) clock world))
    (hnone : overdue due (task.timeline (inner ++ outer) clock world) = false) :
    task.run (inner ++ due :: outer) clock world =
        ((task.run (inner ++ outer) clock world).1.past inner.length,
          (task.run (inner ++ outer) clock world).2) ∧
      task.timeline (inner ++ due :: outer) clock world =
        task.timeline (inner ++ outer) clock world := by
  induction task generalizing inner clock world with
  | done ctx => exact ⟨rfl, rfl⟩
  | act update resume ih =>
      obtain ⟨hrun, htimeline⟩ := ih (update world) inner hapart.tail hnone
      exact ⟨hrun, congrArg _ htimeline⟩
  | abort resume ih =>
      obtain ⟨hrun, htimeline⟩ := ih inner hapart.tail hnone
      exact ⟨hrun, congrArg _ htimeline⟩
  | pause how resume ih =>
      rw [timeline] at hapart hnone
      by_cases hhow : how = .sleep ⟨0⟩
      · subst hhow
        exact ih inner hapart hnone
      obtain ⟨hwaiting, hrest⟩ := Bool.or_eq_false_iff.mp (Timeline.overdue_append ▸ hnone)
      have hbefore : clock.timeAfter (inner ++ outer) how < due := by
        simpa [Clock.overdue_waiting hhow] using hwaiting
      have hlater := hapart.right (clock.waiting_spans _ _) hwaiting
      rw [run, run, timeline, timeline, Clock.waiting_insert hbefore, Clock.wait_insert hbefore]
      unfold Clock.timeAfter at hlater
      generalize clock.wait (inner ++ outer) how = result at hrest hlater ⊢
      cases result with
      | ok later =>
          obtain ⟨hrun, htimeline⟩ := ih inner hlater hrest
          exact ⟨hrun, congrArg _ htimeline⟩
      | error stopped => exact ⟨rfl, rfl⟩
  | limited limit part resume ihPart ihResume =>
      rw [timeline] at hapart hnone
      have hinside := hapart.cons (Nat.le_add_right _ _)
      obtain ⟨hpart, hrest⟩ := Bool.or_eq_false_iff.mp (Timeline.overdue_append ▸ hnone)
      obtain ⟨hrun, htimeline⟩ :=
        ihPart ((clock.now + limit.nanoseconds) :: inner) hinside.left hpart
      have hlater := hapart.tail.right (part.timeline_spans _ _ _) hpart
      simp only [List.cons_append, List.length_cons] at hrun htimeline
      rw [run, run, timeline, timeline, hrun, htimeline]
      generalize part.run _ clock world = result at hrest hlater ⊢
      obtain ⟨ending, later, after⟩ := result
      cases ending using Ending.limitCases with
      | finished ctx =>
          obtain ⟨hrun, htimeline⟩ := ihResume (some ctx) inner hlater hrest
          exact ⟨hrun, congrArg (_ :: _ ++ ·) htimeline⟩
      | expired =>
          obtain ⟨hrun, htimeline⟩ := ihResume none inner hlater hrest
          exact ⟨hrun, congrArg (_ :: _ ++ ·) htimeline⟩
      | outer number =>
          rw [Ending.past_succ]
          exact ⟨rfl, rfl⟩
      | cancelled => exact ⟨rfl, rfl⟩

/-- How a run ends that is not in time: it is dropped by the limit, at its time, when it has done
what it would have done in time. -/
structure Dropped (due place : Nat) (effects : Timeline W) (result : Ending E × Clock × W)
    (seen : Timeline W) : Prop where
  ending : result.1 = .interrupted (.expired place)
  now : result.2.1.now = due
  seen : seen = effects ++ [(due, .stop)]

namespace Dropped

variable {due place : Nat} {effects seen first : Timeline W} {result : Ending E × Clock × W}

theorem behind (hdropped : Dropped due place effects result seen) :
    Dropped due place (first ++ effects) result (first ++ seen) where
  ending := hdropped.ending
  now := hdropped.now
  seen := by rw [hdropped.seen, List.append_assoc]

theorem cons {x : Nat × Incident W} (hdropped : Dropped due place effects result seen) :
    Dropped due place (x :: effects) result (x :: seen) :=
  ⟨hdropped.ending, hdropped.now, congrArg _ hdropped.seen⟩

end Dropped

/-- The clock and the world are left as what has happened in time says. -/
theorem Dropped.run_eq {task : Task E W} {deadlines : List Nat} {clock : Clock} {world : W}
    {due place : Nat} {effects : Timeline W}
    (hdropped : Dropped due place effects (task.run deadlines clock world)
      (task.timeline deadlines clock world)) :
    task.run deadlines clock world =
      (.interrupted (.expired place), clock.after effects due, effects.apply world) := by
  obtain ⟨hending, hnow, hseen⟩ := hdropped
  have hclock := task.clock_run deadlines clock world
  have hworld := task.world_run deadlines clock world
  rw [hnow, hseen] at hclock
  rw [hseen, Timeline.apply_append] at hworld
  have hstop : clock.after (effects ++ [(due, .stop)]) due = clock.after effects due := by
    simp [Clock.after, Timeline.aborts, Incident.isAbort]
  rw [hstop] at hclock
  exact Prod.ext hending (Prod.ext hclock hworld)

/-- A run that is not in time is dropped. -/
theorem run_insert_of_overdue (task : Task E W) (inner : List Nat) {outer : List Nat} {due : Nat}
    {clock : Clock} {world : W}
    (hapart : Apart due inner outer clock.now (task.timeline (inner ++ outer) clock world))
    (hlate : overdue due (task.timeline (inner ++ outer) clock world) = true) :
    Dropped due inner.length (inTime due (task.timeline (inner ++ outer) clock world))
      (task.run (inner ++ due :: outer) clock world)
      (task.timeline (inner ++ due :: outer) clock world) := by
  induction task generalizing inner clock world with
  | done ctx => cases hlate
  | act update resume ih =>
      exact (ih (update world) inner hapart.tail hlate).cons
  | abort resume ih =>
      exact (ih inner hapart.tail hlate).cons
  | pause how resume ih =>
      rw [timeline] at hapart hlate
      by_cases hhow : how = .sleep ⟨0⟩
      · subst hhow
        exact ih inner hapart hlate
      rw [run, timeline, timeline]
      cases hwaiting : overdue due (clock.waiting (inner ++ outer) how : Timeline W) with
      | true =>
          have hafter : due ≤ clock.timeAfter (inner ++ outer) how := by
            simpa [Clock.overdue_waiting hhow] using hwaiting
          rw [Timeline.inTime_append_of_overdue hwaiting,
            Clock.wait_insert_of_late hhow hapart hafter,
            Clock.waiting_insert_of_late hhow hapart hafter]
          exact ⟨rfl, rfl, List.append_nil _⟩
      | false =>
          have hbefore : clock.timeAfter (inner ++ outer) how < due := by
            simpa [Clock.overdue_waiting hhow] using hwaiting
          have hlater := hapart.right (clock.waiting_spans _ _) hwaiting
          rw [Timeline.overdue_append, hwaiting, Bool.false_or] at hlate
          rw [Timeline.inTime_append hwaiting, Clock.waiting_insert hbefore,
            Clock.wait_insert hbefore]
          unfold Clock.timeAfter at hlater
          generalize clock.wait (inner ++ outer) how = result at hlate hlater ⊢
          cases result with
          | ok later => exact (ih inner hlater hlate).behind
          | error stopped => cases hlate
  | limited limit part resume ihPart ihResume =>
      rw [timeline] at hapart hlate
      have hinside := (hapart.cons (Nat.le_add_right _ _)).left
      have hspans := part.timeline_spans ((clock.now + limit.nanoseconds) :: (inner ++ outer)) clock
        world
      rw [timeline, timeline, Timeline.inTime_cons rfl]
      cases hpart : overdue due (part.timeline ((clock.now + limit.nanoseconds) :: (inner ++ outer))
        clock world) with
      | true =>
          obtain ⟨hending, hnow, hseen⟩ :=
            ihPart ((clock.now + limit.nanoseconds) :: inner) hinside hpart
          rw [Timeline.inTime_append_of_overdue hpart, run]
          simp only [List.cons_append, List.length_cons] at hending hnow hseen
          rw [hseen]
          generalize part.run _ clock world = result at hending hnow ⊢
          obtain ⟨ending, later, after⟩ := result
          dsimp only at hending hnow
          subst hending
          exact ⟨rfl, hnow, congrArg _ (List.append_nil _)⟩
      | false =>
          obtain ⟨hrun, htimeline⟩ :=
            part.run_insert ((clock.now + limit.nanoseconds) :: inner) hinside hpart
          have hlater := hapart.tail.right hspans hpart
          have hrest := Timeline.overdue_append.symm.trans hlate
          simp only [List.cons_append, List.length_cons] at hrun htimeline
          rw [hpart, Bool.false_or] at hrest
          rw [Timeline.inTime_append hpart, run, hrun, htimeline]
          generalize part.run _ clock world = result at hrest hlater ⊢
          obtain ⟨ending, later, after⟩ := result
          cases ending using Ending.limitCases with
          | finished ctx => exact (ihResume (some ctx) inner hlater hrest).behind.cons
          | expired => exact (ihResume none inner hlater hrest).behind.cons
          | outer | cancelled => cases hrest

end Task

/-! ## The filter -/

/-- A chain that is about to go into the filter `Handler.timeLimit`, at a stage of a run. -/
structure LimitedChain (E W : Type) where
  predicate : Predicate E
  limit : Duration
  /-- The handlers behind the filter. -/
  rest : List (Handler E W)
  /-- Where the chain is, and where in it the filter is. -/
  address : Address
  index : Nat
  ctx : Context E
  /-- How the run goes on after the chain. -/
  onward : Context E → Task E W
  deadlines : List Nat
  clock : Clock
  world : W

namespace LimitedChain

section Definitions

variable (c : LimitedChain E W) (monitor : Monitor E W)

/-- The address of the filter. -/
def here : Address := c.address ++ [c.index]

/-- The time at which the limit passes. -/
def due : Nat := c.clock.now + c.limit.nanoseconds

/-- What happens when the filter returns a context. -/
def returning (returned : Context E) (now : Nat) : Timeline W :=
  [(now, .change (monitor (.returned c.here returned))), (now, .change (monitor (.left c.here)))]

/-- How the filter returns a context. -/
def returnTask (returned : Context E) : Task E W :=
  .doing (monitor (.returned c.here returned)) (.doing (monitor (.left c.here)) (c.onward returned))

/-- The stage after the chain, which goes on from what the filter has returned. -/
def next (returned : Context E) (clock : Clock) (world : W) : Stage E W :=
  ⟨c.deadlines, c.onward returned, clock, (c.returning monitor returned clock.now).apply world⟩

variable [Routable E]

/-- The context that enters the filter. -/
def entered : Context E := c.ctx.select c.predicate c.index

/-- The context that enters the filter, with the time-out as its exception. -/
def timedOut : Context E := c.entered.withException (.handler (.timeout c.limit))

/-- The world when the filter has been entered. -/
def inside : W := monitor (.called c.here c.entered) (monitor (.entered c.here) c.world)

/-- What happens when the filter is entered. -/
def opening : Timeline W :=
  [(c.clock.now, .change (monitor (.entered c.here))),
    (c.clock.now, .change (monitor (.called c.here c.entered))), (c.clock.now, .change id),
    (c.clock.now, .timer c.due)]

/-- The rest of the chain by itself, without the limit. -/
def untimed : Stage E W where
  deadlines := c.deadlines
  task := Suspending.walk monitor c.rest c.address (c.index + 1) c.entered
  clock := c.clock
  world := c.inside monitor

/-- What happens in the rest of the chain before the limit passes or, if there is no time at all,
before the rest first waits. -/
def effects : Timeline W :=
  if c.limit.nanoseconds = 0 then (c.untimed monitor).timeline.takeWhile fun x => !x.2.isStop
  else (c.untimed monitor).timeline.filter fun x => x.1 < c.due

/-- No other deadline is at the time at which the limit passes. -/
structure Untied : Prop where
  deadlines : c.due ∉ c.deadlines
  timers : c.due ∉ (c.untimed monitor).timeline.timers

variable [HasJournal W]

/-- The stage at which the chain goes into the filter. -/
def stage : Stage E W where
  deadlines := c.deadlines
  task := (Suspending.walk monitor (.timeLimit c.predicate c.limit :: c.rest) c.address c.index
    c.ctx).bind c.onward
  clock := c.clock
  world := c.world

/-- The chain goes into the filter. -/
structure Selected : Prop where
  attached : c.ctx.position.attached
  goesInto : c.ctx.goesInto c.index (.timeLimit c.predicate c.limit : Handler E W)

/-- What the filter reports when its time is over. The spans that have been opened since it was
entered in a world are closed. -/
def report (world : W) : W → W :=
  HasJournal.change fun journal =>
    (journal.closeTo (HasJournal.journal world).spans.length).emit .warn "handler chain timed out"
      [("path", .text (Routable.path c.entered.event)),
        ("timeout_ms", .number c.limit.milliseconds)]

/-- What happens when the time is over. -/
def expiring : Timeline W :=
  (c.due, .stop) :: (c.due, .change (c.report (c.inside monitor))) ::
    c.returning monitor c.timedOut c.due

/-- What the filter does when it has been entered in a world. -/
def insideTask (world : W) : Task E W :=
  .limited c.limit (c.untimed monitor).task fun
    | some result => c.returnTask monitor result
    | none => .doing (c.report world) (c.returnTask monitor c.timedOut)

end Definitions

variable {c : LimitedChain E W} {monitor : Monitor E W}

theorem returnTask_reaches (returned : Context E) (clock : Clock) (world : W) :
    (⟨c.deadlines, c.returnTask monitor returned, clock, world⟩ : Stage E W).Reaches
      (c.returning monitor returned clock.now) (c.next monitor returned clock world) :=
  .act (.act (.refl _))

variable [Routable E]

theorem Untied.apart (huntied : c.Untied monitor) :
    Apart c.due [] c.deadlines c.clock.now (c.untimed monitor).timeline where
  ahead := by
    rcases Nat.eq_or_lt_of_le (Nat.le_add_right c.clock.now c.limit.nanoseconds) with hnow | hnow
    · exact .inr ⟨hnow, nofun⟩
    · exact .inl hnow
  inner := nofun
  outer := huntied.deadlines
  timers := huntied.timers

theorem timeline_spans :
    (c.untimed monitor).timeline.Spans c.clock.now (c.untimed monitor).run.2.1.now :=
  (c.untimed monitor).task.timeline_spans _ _ _

/-- A rest that ends before the limit passes is in time. -/
theorem overdue_eq_false_of_lt (hbefore : (c.untimed monitor).run.2.1.now < c.due) :
    overdue c.due (c.untimed monitor).timeline = false :=
  Bool.eq_false_iff.mpr fun hlate =>
    absurd (timeline_spans.le_of_overdue hlate) (Nat.not_le_of_lt hbefore)

/-- A rest that ends later is not. -/
theorem overdue_eq_true_of_lt (hafter : c.due < (c.untimed monitor).run.2.1.now) :
    overdue c.due (c.untimed monitor).timeline = true := by
  have hspans : (c.untimed monitor).timeline.Spans _ _ := timeline_spans
  cases hnone : overdue c.due (c.untimed monitor).timeline with
  | true => rfl
  | false =>
      rcases Nat.eq_or_lt_of_le (Nat.le_add_right c.clock.now c.limit.nanoseconds) with hnow | hnow
      · rw [hnow] at hspans
        exact absurd (hspans.eq_of_not_overdue hnone) (Nat.ne_of_gt hafter)
      · exact absurd (hspans.lt_of_not_overdue hnow hnone) (Nat.not_lt_of_lt hafter)

/-- What happens in time is what happens before the limit passes. -/
theorem inTime_eq_effects : inTime c.due (c.untimed monitor).timeline = c.effects monitor := by
  have hspans : (c.untimed monitor).timeline.Spans _ _ := timeline_spans
  unfold effects
  split
  · rename_i hzero
    have hdue : c.due = c.clock.now := by rw [due, hzero, Nat.add_zero]
    rw [hdue]
    exact hspans.inTime_eq_takeWhile
  · rename_i hsome
    exact hspans.inTime_eq_filter (Nat.lt_add_of_pos_right (Nat.pos_of_ne_zero hsome))

/-- The run of the rest of the chain in time. -/
theorem run_part_of_inTime (huntied : c.Untied monitor)
    (hnone : overdue c.due (c.untimed monitor).timeline = false) :
    (c.untimed monitor).task.run (c.due :: c.deadlines) c.clock (c.inside monitor) =
        ((c.untimed monitor).run.1.past 0, (c.untimed monitor).run.2) ∧
      (c.untimed monitor).task.timeline (c.due :: c.deadlines) c.clock (c.inside monitor) =
        (c.untimed monitor).timeline :=
  (c.untimed monitor).task.run_insert [] huntied.apart hnone

variable [HasJournal W]

theorem stage_eq (hselected : c.Selected) :
    c.stage monitor = ⟨c.deadlines,
      .doing (monitor (.entered c.here)) (.doing (monitor (.called c.here c.entered))
        (.act id (c.insideTask monitor))), c.clock, c.world⟩ := by
  rw [stage, Suspending.walk, if_pos hselected.attached, if_pos hselected.goesInto]
  refine congrArg (Stage.mk c.deadlines · c.clock c.world) <| congrArg (Task.doing _) <|
    congrArg (Task.doing _) <| congrArg (Task.act id) <| funext fun world =>
      congrArg (Task.limited c.limit _) <| funext fun result => ?_
  cases result <;> rfl

/-- The stage at which the chain goes into the filter leads into the filter. -/
theorem reaches_of_inside (hselected : c.Selected) {seen : Timeline W} {s : Stage E W}
    (hinside : (⟨c.deadlines, c.insideTask monitor (c.inside monitor), c.clock,
      c.inside monitor⟩ : Stage E W).Reaches ((c.clock.now, .timer c.due) :: seen) s) :
    (c.stage monitor).Reaches (c.opening monitor ++ seen) s := by
  rw [stage_eq hselected]
  exact .act (.act (.act hinside))

/-- A chain that comes to its end in time returns its result. -/
theorem reaches_of_inTime (hselected : c.Selected) (huntied : c.Untied monitor)
    (hnone : overdue c.due (c.untimed monitor).timeline = false) {result : Context E}
    {later : Clock} {after : W}
    (hfinished : (c.untimed monitor).run = (.finished result, later, after)) :
    (c.stage monitor).Reaches
      (c.opening monitor ++ (c.untimed monitor).timeline ++ c.returning monitor result later.now)
      (c.next monitor result later after) := by
  obtain ⟨hrun, htimeline⟩ := run_part_of_inTime huntied hnone
  rw [hfinished] at hrun
  rw [List.append_assoc, ← htimeline]
  exact reaches_of_inside hselected (.finished hrun (returnTask_reaches result later after))

/-- A chain that is interrupted in time is interrupted with the filter. -/
theorem run_of_interrupted (hselected : c.Selected) (huntied : c.Untied monitor)
    (hnone : overdue c.due (c.untimed monitor).timeline = false) {cause : Interruption}
    {later : Clock} {after : W}
    (hinterrupted : (c.untimed monitor).run = (.interrupted cause, later, after)) :
    (c.stage monitor).run = (.interrupted cause, later, after) := by
  obtain ⟨hrun, _⟩ := run_part_of_inTime huntied hnone
  rw [hinterrupted] at hrun
  rw [stage_eq hselected]
  change (c.insideTask monitor (c.inside monitor)).run c.deadlines c.clock (c.inside monitor) = _
  rw [insideTask, Task.run, show c.clock.now + c.limit.nanoseconds = c.due from rfl, hrun]
  cases cause <;> rfl

/-- A chain that does not is dropped. The context that has entered goes on, with the time-out as its
exception. -/
theorem reaches_of_overdue (hselected : c.Selected) (huntied : c.Untied monitor)
    (hlate : overdue c.due (c.untimed monitor).timeline = true) :
    (c.stage monitor).Reaches (c.opening monitor ++ c.effects monitor ++ c.expiring monitor)
      (c.next monitor c.timedOut (c.clock.after (c.effects monitor) c.due)
        (c.report (c.inside monitor) ((c.effects monitor).apply (c.inside monitor)))) := by
  rw [← inTime_eq_effects]
  have hdropped : Task.Dropped c.due 0 (inTime c.due (c.untimed monitor).timeline)
      ((c.untimed monitor).task.run (c.due :: c.deadlines) c.clock (c.inside monitor))
      ((c.untimed monitor).task.timeline (c.due :: c.deadlines) c.clock (c.inside monitor)) :=
    (c.untimed monitor).task.run_insert_of_overdue [] huntied.apart hlate
  have hseen : (c.untimed monitor).task.timeline (c.due :: c.deadlines) c.clock
        (c.inside monitor) ++ (c.due, .change (c.report (c.inside monitor))) ::
          c.returning monitor c.timedOut c.due =
      inTime c.due (c.untimed monitor).timeline ++ c.expiring monitor := by
    rw [hdropped.seen, List.append_assoc]
    rfl
  rw [List.append_assoc, ← hseen]
  exact reaches_of_inside hselected (.expired hdropped.run_eq (.act (returnTask_reaches _ _ _)))

end LimitedChain

namespace Dispatcher

variable [Routable E] [HasJournal W] (d : Dispatcher E W) (monitor : Monitor E W) (event : E)
  (attributes : Attributes)

/-- The filter `Handler.timeLimit` is transparent or atomic, wherever a dispatch comes to it. If the
rest of the chain ends before the limit passes, the filter returns its result and nothing is
different from a run without the limit. If it would end later, it does only what it would have done
by then, and the dispatch goes on from the context that has entered the filter, with the time-out as
its exception. If it is interrupted before that by something else, so is the filter. -/
theorem timeLimit_transparent_or_atomic {start : Clock} {world : W} {before : Timeline W}
    {c : LimitedChain E W}
    (hreaches : (d.stage monitor event attributes start world).Reaches before (c.stage monitor))
    (hselected : c.Selected) (huntied : c.Untied monitor) :
    (∀ result later after, (c.untimed monitor).run = (.finished result, later, after) →
        later.now < c.due →
          (d.stage monitor event attributes start world).Reaches
            (before ++ (c.opening monitor ++ (c.untimed monitor).timeline ++
              c.returning monitor result later.now))
            (c.next monitor result later after)) ∧
      (c.due < (c.untimed monitor).run.2.1.now →
        (d.stage monitor event attributes start world).Reaches
          (before ++ (c.opening monitor ++ c.effects monitor ++ c.expiring monitor))
          (c.next monitor c.timedOut (c.clock.after (c.effects monitor) c.due)
            (c.report (c.inside monitor) ((c.effects monitor).apply (c.inside monitor))))) ∧
      ∀ cause later after, (c.untimed monitor).run = (.interrupted cause, later, after) →
        later.now < c.due → (c.stage monitor).run = (.interrupted cause, later, after) := by
  refine ⟨?_, ?_, ?_⟩
  · intro result later after hfinished hbefore
    have hends : (c.untimed monitor).run.2.1.now < c.due := by rwa [hfinished]
    have hnone := LimitedChain.overdue_eq_false_of_lt hends
    exact hreaches.trans (LimitedChain.reaches_of_inTime hselected huntied hnone hfinished)
  · intro hafter
    have hlate := LimitedChain.overdue_eq_true_of_lt hafter
    exact hreaches.trans (LimitedChain.reaches_of_overdue hselected huntied hlate)
  · intro cause later after hinterrupted hbefore
    have hends : (c.untimed monitor).run.2.1.now < c.due := by rwa [hinterrupted]
    have hnone := LimitedChain.overdue_eq_false_of_lt hends
    exact LimitedChain.run_of_interrupted hselected huntied hnone hinterrupted

/-- Two limits of time around a route that panics. Behind the inner one a handler sleeps for too
long, behind the outer one another does when the inner one is through. -/
def nestedLimits : List (Handler TextEvent Journal) :=
  [.after Predicate.any fun ctx => .recording (·.write "out") (.done ctx),
    .timeLimit Predicate.any ⟨50⟩,
    .filter Predicate.any fun ctx =>
      .next ctx fun result =>
        .recording (·.write "back")
          (.pause (.sleep ⟨40⟩) (.recording (·.write "late") (.done result))),
    .timeLimit Predicate.any ⟨20⟩,
    .after Predicate.any fun ctx => .pause (.sleep ⟨30⟩) (.recording (·.write "never") (.done ctx)),
    .on Predicate.any fun _ => .recording (·.write "in") (.panic (.text "boom"))]

/-- The dispatcher of `nestedLimits`. -/
def aroundNestedLimits : Dispatcher TextEvent Journal := ⟨.group Predicate.any nestedLimits⟩

/-- The outer limit of `nestedLimits`. -/
def outerLimit (onward : Context TextEvent → Task TextEvent Journal) :
    LimitedChain TextEvent Journal where
  predicate := Predicate.any
  limit := ⟨50⟩
  rest := nestedLimits.drop 2
  address := [0]
  index := 1
  ctx := ((startContext (⟨"/"⟩ : TextEvent) Attributes.empty).select Predicate.any 0).enter.select
    Predicate.any 0
  onward := onward
  deadlines := []
  clock := {}
  world := {}

/-- The rest of `nestedLimits` would take 60 and has 50. The inner limit passes at 20, and what
happens behind it goes on. The outer limit passes at 50, and the handler in front of it goes on. -/
theorem timeLimit_atomic_nestedLimits :
    ofHandlers nestedLimits = .ok aroundNestedLimits ∧
      (aroundNestedLimits.processSuspending Monitor.silent ⟨"/"⟩ Attributes.empty {} {}).2.log =
        ["in", "back", "out"] ∧
      ∃ onward before,
        let c := outerLimit onward
        let entered := aroundNestedLimits.stage Monitor.silent ⟨"/"⟩ Attributes.empty {} {}
        entered.Reaches before (c.stage Monitor.silent) ∧ c.Selected ∧ c.Untied Monitor.silent ∧
          c.due < (c.untimed Monitor.silent).run.2.1.now ∧
          entered.Reaches (before ++
              (c.opening Monitor.silent ++ c.effects Monitor.silent ++ c.expiring Monitor.silent))
            (c.next Monitor.silent c.timedOut (c.clock.after (c.effects Monitor.silent) c.due)
              (c.report (c.inside Monitor.silent)
                ((c.effects Monitor.silent).apply (c.inside Monitor.silent)))) := by
  refine ⟨rfl, rfl, ?_⟩
  have hreaches := (aroundNestedLimits.reaches_chain Monitor.silent ⟨"/"⟩ Attributes.empty rfl {}
    {}).trans (Suspending.reaches_behind_after Monitor.silent rfl rfl _ _ _ _)
  -- Neither depends on how the run goes on.
  have htimers : ((outerLimit .done).untimed Monitor.silent).timeline.timers = [20, 30, 60] := by
    decide +kernel
  have hends : ((outerLimit .done).untimed Monitor.silent).run.2.1.now = 60 := by decide +kernel
  have huntied (onward : Context TextEvent → Task TextEvent Journal) :
      (outerLimit onward).Untied Monitor.silent := by
    refine ⟨List.not_mem_nil, fun hmem => ?_⟩
    change 50 ∈ ((outerLimit .done).untimed Monitor.silent).timeline.timers at hmem
    simp [htimers] at hmem
  have hlate (onward : Context TextEvent → Task TextEvent Journal) :
      (outerLimit onward).due < ((outerLimit onward).untimed Monitor.silent).run.2.1.now := by
    change 50 < ((outerLimit .done).untimed Monitor.silent).run.2.1.now
    simp [hends]
  obtain ⟨_, hatomic, _⟩ := aroundNestedLimits.timeLimit_transparent_or_atomic Monitor.silent ⟨"/"⟩
    Attributes.empty hreaches (c := outerLimit _) ⟨rfl, rfl⟩ (huntied _)
  exact ⟨_, _, hreaches, ⟨rfl, rfl⟩, huntied _, hlate _, hatomic (hlate _)⟩

/-- A route that logs when it begins and when it has slept. -/
def sleepingRoute : Handler TextEvent Journal :=
  .on Predicate.any fun ctx =>
    .recording (·.write "begin")
      (.pause (.sleep ⟨10⟩) (.recording (·.write "end") (.done ctx)))

/-- A limit of no time in front of `sleepingRoute`. -/
def hurried : Dispatcher TextEvent Journal :=
  ⟨.group Predicate.any [.timeLimit Predicate.any ⟨0⟩, sleepingRoute]⟩

/-- The chain of `hurried`. -/
def hurriedChain : LimitedChain TextEvent Journal where
  predicate := Predicate.any
  limit := ⟨0⟩
  rest := [sleepingRoute]
  address := [0]
  index := 0
  ctx := ((startContext (⟨"/"⟩ : TextEvent) Attributes.empty).select Predicate.any 0).enter
  onward := afterChain Monitor.silent
    ((startContext (⟨"/"⟩ : TextEvent) Attributes.empty).select Predicate.any 0).position
  deadlines := []
  clock := {}
  world := {}

/-- A route behind a limit of no time begins all the same, though it does not end before the limit
passes, and nothing that it does happens before that. -/
theorem hurried_route_begins :
    (∃ before, (hurried.stage Monitor.silent ⟨"/"⟩ Attributes.empty {} {}).Reaches before
        (hurriedChain.stage Monitor.silent)) ∧
      hurriedChain.Selected ∧ hurriedChain.Untied Monitor.silent ∧
      hurriedChain.due < (hurriedChain.untimed Monitor.silent).run.2.1.now ∧
      ((hurriedChain.untimed Monitor.silent).timeline.filter fun x => x.1 < hurriedChain.due) = [] ∧
      (hurried.processSuspending Monitor.silent ⟨"/"⟩ Attributes.empty {} {}).2.log =
        ["begin"] := by
  refine ⟨⟨_, hurried.reaches_chain _ _ _ rfl _ _⟩, ⟨rfl, rfl⟩, ⟨List.not_mem_nil, by decide⟩,
    by decide, rfl, rfl⟩

end Dispatcher

end RequestRouting
