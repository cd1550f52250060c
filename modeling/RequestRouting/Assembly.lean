import RequestRouting.Handler

/-!
# Assembly

Handlers together with the trace of how they were put together. Every pattern with an
expression that is read on the way leaves an event; a pattern that is mounted under
another one is read again.
-/

namespace RequestRouting

variable {E W : Type}

/-- The trace of reading patterns. -/
def compiledEvents (patterns : List Pattern) : List Trace.Event :=
  patterns.filterMap Pattern.compiledEvent?

/-- A handler with the trace of its assembly. -/
structure Assembled (E W : Type) where
  handler : Handler E W
  trace : List Trace.Event

namespace Assembled

/-- A handler by itself. -/
def ofHandler (handler : Handler E W) : Assembled E W :=
  ⟨handler, compiledEvents [handler.predicate.pattern]⟩

/-- A handler under an outer pattern that has been read for it. -/
def mount (outer : Pattern) (inner : Assembled E W) : Except PatternError (Assembled E W) :=
  (inner.handler.mount outer).map fun handler =>
    ⟨handler, inner.trace ++ compiledEvents (outer :: handler.patterns)⟩

/-- The trace of the handlers of a chain before they are mounted. -/
def traceAll (handlers : List (Assembled E W)) : List Trace.Event :=
  handlers.flatMap (·.trace)

/-- The trace of mounting the handlers of a group. -/
def mountTrace (group : Handler E W) : List Trace.Event :=
  match group with
  | .group _ handlers => compiledEvents (Handler.patternsAll handlers)
  | _ => []

/-- A group whose pattern was read before its handlers. -/
def group (predicate : Predicate E) (handlers : List (Assembled E W)) :
    Except PatternError (Assembled E W) :=
  (Handler.groupOf predicate (handlers.map (·.handler))).map fun group =>
    ⟨group, compiledEvents [predicate.pattern] ++ traceAll handlers ++ mountTrace group⟩

/-- A group whose pattern was read after its handlers. -/
def groupAfter (handlers : List (Assembled E W)) (predicate : Predicate E) :
    Except PatternError (Assembled E W) :=
  (Handler.groupOf predicate (handlers.map (·.handler))).map fun group =>
    ⟨group, traceAll handlers ++ compiledEvents [predicate.pattern] ++ mountTrace group⟩

end Assembled

end RequestRouting
