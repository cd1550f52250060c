import RequestRouting.Dispatch.Notice

/-!
# Tasks

A task is work that can stop and be taken up again: it changes the world, waits, puts
a limit on the time of a part of itself, and ends with a context. `Task.run` is the
timetable: it takes a task through to its end on a clock that moves only while the
task sleeps.

Whatever is due when a task stops happens then and not earlier. If the limit of a
part has passed, the part is dropped, the innermost first; otherwise, if the dispatch
has been aborted, the whole task is dropped; otherwise the clock moves on to the end
of the sleep or to the earliest limit, whichever comes first.
-/

namespace RequestRouting

/-- Work that can stop and be taken up again. -/
inductive Task (E W : Type)
  | done (ctx : Context E)
  /-- Changes the world and goes on with a look at it. -/
  | act (update : W → W) (resume : W → Task E W)
  | pause (how : Pause) (resume : Task E W)
  /-- Asks for the dispatch to be aborted. -/
  | abort (resume : Task E W)
  /-- Runs a part within a limit of time; `none` if that was not enough. -/
  | limited (limit : Duration) (part : Task E W) (resume : Option (Context E) → Task E W)

namespace Task

variable {E W : Type}

/-- Goes on with the context that a task ends with. -/
def bind (task : Task E W) (onward : Context E → Task E W) : Task E W :=
  match task with
  | done ctx => onward ctx
  | act update resume => act update fun world => (resume world).bind onward
  | pause how resume => pause how (resume.bind onward)
  | abort resume => abort (resume.bind onward)
  | limited limit part resume => limited limit part fun result => (resume result).bind onward

/-- Changes the world, then goes on. -/
def doing (update : W → W) (task : Task E W) : Task E W := act update fun _ => task

end Task

/-- The state of the clock during a run. -/
structure Clock where
  /-- The time since the start of the run, in nanoseconds. -/
  now : Nat := 0
  /-- Whether the run can be aborted from inside. -/
  abortable : Bool := false
  /-- Whether it has been. -/
  aborted : Bool := false
  deriving DecidableEq, Repr

/-- Why a run or a part of it stops before its end. -/
inductive Interruption
  /-- The limit with the given number, counted from the innermost, has passed. -/
  | expired (number : Nat)
  | cancelled
  deriving DecidableEq, Repr

/-- How a run or a part of it ends. -/
inductive Ending (E : Type)
  | finished (ctx : Context E)
  | interrupted (cause : Interruption)

namespace Clock

/-- The number of the innermost limit that has passed. -/
def passed? (now : Nat) (deadlines : List Nat) : Option Nat :=
  deadlines.findIdx? (· ≤ now)

/-- The earliest of the limits, of several at one time the innermost. -/
def earliest? : List Nat → Option Nat
  | [] => none
  | deadline :: outer =>
      match earliest? outer with
      | some other => some (min deadline other)
      | none => some deadline

/-- What happens when a task stops to wait: the clock with which it goes on, or the
clock with which the run or a part of it ends. A sleep of no length is no stop.
`deadlines` are the limits around the task, innermost first. -/
def wait (clock : Clock) (deadlines : List Nat) (how : Pause) :
    Except (Interruption × Clock) Clock :=
  match how with
  | .sleep ⟨0⟩ => .ok clock
  | _ =>
      match passed? clock.now deadlines with
      | some number => .error (.expired number, clock)
      | none =>
          if clock.aborted then .error (.cancelled, clock)
          else
            match how with
            | .turn => .ok clock
            | .sleep span =>
                let target := clock.now + span.nanoseconds
                match earliest? deadlines with
                | some deadline =>
                    if target ≤ deadline then .ok { clock with now := target }
                    else
                      .error (.expired ((passed? deadline deadlines).getD 0),
                        { clock with now := deadline })
                | none => .ok { clock with now := target }

end Clock

namespace Task

variable {E W : Type}

/-- Takes a task to its end. `deadlines` are the limits around it, innermost first. -/
def run (deadlines : List Nat) : Task E W → Clock → W → Ending E × Clock × W
  | done ctx, clock, world => (.finished ctx, clock, world)
  | act update resume, clock, world =>
      let world := update world
      (resume world).run deadlines clock world
  | pause how resume, clock, world =>
      match clock.wait deadlines how with
      | .ok clock => resume.run deadlines clock world
      | .error (cause, clock) => (.interrupted cause, clock, world)
  | abort resume, clock, world =>
      resume.run deadlines { clock with aborted := clock.aborted || clock.abortable } world
  | limited limit part resume, clock, world =>
      match part.run ((clock.now + limit.nanoseconds) :: deadlines) clock world with
      | (.finished ctx, clock, world) => (resume (some ctx)).run deadlines clock world
      | (.interrupted (.expired 0), clock, world) => (resume none).run deadlines clock world
      | (.interrupted (.expired (number + 1)), clock, world) =>
          (.interrupted (.expired number), clock, world)
      | (.interrupted .cancelled, clock, world) => (.interrupted .cancelled, clock, world)

end Task

end RequestRouting
