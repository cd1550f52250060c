import RequestRouting.Context

/-!
# Callbacks

A callback looks at a context and decides what to do. What it does is a finite
plan: it works on contexts as values, may run the rest of the chain from any context
it holds and go on with what comes back, may change the world outside the request
(logs, counters, what a client sends), may wait, and ends with a context or with a failure.

Plans are data, so an engine decides how to carry them out: the blocking one goes
through without stopping, the suspending one turns waits and limits into steps of a
task.
-/

namespace RequestRouting

/-- How a callback waits. -/
inductive Pause
  /-- Until the next turn. -/
  | turn
  /-- For a span of time. -/
  | sleep (span : Duration)
  deriving DecidableEq, Repr

/-- What a callback does, step by step. `E` is the type of events, `W` the type of the
world that handlers share. -/
inductive Plan (E W : Type)
  /-- Returns a context. -/
  | done (ctx : Context E)
  /-- Returns a failure. -/
  | fail (failure : Failure)
  | panic (payload : PanicPayload)
  /-- Runs the rest of the chain from a context and goes on with the result. -/
  | next (ctx : Context E) (resume : Context E → Plan E W)
  /-- Changes the world and goes on with a look at it. -/
  | act (update : W → W) (resume : W → Plan E W)
  | pause (how : Pause) (resume : Plan E W)
  /-- Aborts the dispatch, if that can be aborted. -/
  | abort (resume : Plan E W)
  /-- Runs the rest of the chain with a limit of time; `none` if that was not enough. -/
  | limited (limit : Duration) (ctx : Context E) (resume : Option (Context E) → Plan E W)

/-- A callback of a handler. -/
abbrev Callback (E W : Type) := Context E → Plan E W

namespace Plan

variable {E W : Type}

/-- Changes the world and goes on. -/
def doing (update : W → W) (resume : Plan E W) : Plan E W :=
  act update fun _ => resume

/-- The callback that runs the rest of the chain and returns its result. -/
def proceed : Callback E W := fun ctx => next ctx done

/-- The callback that returns its context. -/
def unchanged : Callback E W := done

end Plan

end RequestRouting
