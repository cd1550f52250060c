import RequestRouting.Callback
import RequestRouting.Trace

/-!
# Handlers

A handler is one of a closed set of steps, each under a predicate. Handlers form
trees: a group holds a chain of handlers of its own.

* `on` runs its callback, then the rest of the chain.
* `after` runs the rest of the chain, then its callback.
* `filter` runs its callback, which decides itself when to go on.
* `recover` runs the rest of the chain, then its callback if that left an exception
  which it accepts.
* `group` runs its own chain, then the rest of the chain around it.

Groups are put together with `Handler.groupOf`, which mounts the handlers inside
under the pattern of the group. A handler inside a group therefore carries the
pattern of the whole path that it matches.
-/

namespace RequestRouting

/-- A step of request handling. -/
inductive Handler (E W : Type)
  | on (predicate : Predicate E) (callback : Callback E W)
  | after (predicate : Predicate E) (callback : Callback E W)
  | filter (predicate : Predicate E) (callback : Callback E W)
  /-- `clears` says whether a callback that succeeds puts the exception away. -/
  | recover (predicate : Predicate E) (accepts : Failure → Bool) (callback : Callback E W)
      (clears : Bool)
  | group (predicate : Predicate E) (handlers : List (Handler E W))

namespace Handler

variable {E W : Type}

/-- When the handler applies. -/
def predicate : Handler E W → Predicate E
  | on p _ | after p _ | filter p _ | recover p _ _ _ | group p _ => p

/-- The name of the step. -/
def kind : Handler E W → String
  | on .. => "on"
  | after .. => "after"
  | filter .. => "filter"
  | recover .. => "exception"
  | group .. => "path"

/-- Whether the handler answers requests instead of wrapping them. -/
def isTerminal : Handler E W → Bool
  | on .. => true
  | _ => false

/-- Whether the handler still runs once an exception is recorded. -/
def runsOnFailure (h : Handler E W) : Bool := !h.isTerminal

mutual

/-- Mounts a handler under an outer pattern, and with it all handlers inside. The
first pattern that is refused, from the outside in and from left to right, decides
about the error. -/
def mount (outer : Pattern) : Handler E W → Except PatternError (Handler E W)
  | on p callback => do
      let p ← p.mount outer
      .ok (on p callback)
  | after p callback => do
      let p ← p.mount outer
      .ok (after p callback)
  | filter p callback => do
      let p ← p.mount outer
      .ok (filter p callback)
  | recover p accepts callback clears => do
      let p ← p.mount outer
      .ok (recover p accepts callback clears)
  | group p handlers => do
      let p ← p.mount outer
      let handlers ← mountAll outer handlers
      .ok (group p handlers)

/-- Mounts each handler of a chain. -/
def mountAll (outer : Pattern) : List (Handler E W) → Except PatternError (List (Handler E W))
  | [] => .ok []
  | h :: rest => do
      let h ← mount outer h
      let rest ← mountAll outer rest
      .ok (h :: rest)

end

/-- A group of handlers, each mounted under the pattern of the group. -/
def groupOf (p : Predicate E) (handlers : List (Handler E W)) :
    Except PatternError (Handler E W) :=
  (mountAll p.pattern handlers).map (group p)

mutual

/-- The patterns of a handler and of all handlers inside it, from the outside in and
from left to right. -/
def patterns : Handler E W → List Pattern
  | group p handlers => p.pattern :: patternsAll handlers
  | on p _ | after p _ | filter p _ | recover p _ _ _ => [p.pattern]

/-- The patterns of the handlers of a chain. -/
def patternsAll : List (Handler E W) → List Pattern
  | [] => []
  | h :: rest => patterns h ++ patternsAll rest

end

mutual

/-- A handler of the blocking engine for diagnostics. -/
def debug : Handler E W → String
  | group p handlers =>
      Text.recordText "Handler"
        [("kind", Text.quoted "path"), ("predicate", p.debug),
          ("handlers", Text.listText (debugAll handlers))]
  | on p _ => Text.recordText "Handler" [("kind", Text.quoted "on"), ("predicate", p.debug)]
  | after p _ =>
      Text.recordText "Handler" [("kind", Text.quoted "after"), ("predicate", p.debug)]
  | filter p _ =>
      Text.recordText "Handler" [("kind", Text.quoted "filter"), ("predicate", p.debug)]
  | recover p _ _ _ =>
      Text.recordText "Handler" [("kind", Text.quoted "exception"), ("predicate", p.debug)]

/-- The handlers of a chain of the blocking engine for diagnostics. -/
def debugAll : List (Handler E W) → List String
  | [] => []
  | h :: rest => debug h :: debugAll rest

end

mutual

/-- A handler of the suspending engine for diagnostics. -/
def suspendingDebug : Handler E W → String
  | group p handlers =>
      Text.recordText "AsyncHandler::Path"
        [("predicate", p.debug), ("handlers", Text.listText (suspendingDebugAll handlers))]
  | on p _ | after p _ | filter p _ | recover p _ _ _ => "AsyncHandler(" ++ p.debug ++ ")"

/-- The handlers of a chain of the suspending engine for diagnostics. -/
def suspendingDebugAll : List (Handler E W) → List String
  | [] => []
  | h :: rest => suspendingDebug h :: suspendingDebugAll rest

end

end Handler

/-- The report that a pattern with an expression has been compiled. -/
def Pattern.compiledEvent? (p : Pattern) : Option Trace.Event :=
  p.expression?.map fun expression =>
    { level := .trace
      message := "compiled path expression"
      fields :=
        [("pattern", .text p.text), ("prefix", .flag p.matchesLeading),
          ("parameters", .text (Text.listText (expression.parameters.map Text.quoted)))] }

end RequestRouting
