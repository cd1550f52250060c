import RequestRouting.Dispatch.Notice

/-!
# Journals

What the handlers of a router leave behind outside the requests: lines of a log, a
counter, and the trace with the spans that are open. Nothing in a journal is taken
back when a callback fails.
-/

namespace RequestRouting

/-- Which engine carries out a dispatch. -/
inductive Engine
  | blocking
  | suspending
  deriving DecidableEq, Repr

/-- What handlers leave behind. -/
structure Journal where
  /-- Log lines, oldest first. -/
  log : List String := []
  count : Nat := 0
  /-- The open spans, outermost first. -/
  spans : List Trace.Span := []
  /-- The trace, oldest event first. -/
  events : List Trace.Event := []

namespace Journal

/-- Adds a log line. -/
def write (j : Journal) (line : String) : Journal := { j with log := j.log ++ [line] }

/-- Counts one up. -/
def countUp (j : Journal) : Journal := { j with count := j.count + 1 }

/-- Emits a trace event within the open spans. -/
def emit (j : Journal) (level : Trace.Level) (message : String) (fields : Trace.Fields) :
    Journal :=
  { j with events := j.events ++ [⟨level, message, fields, j.spans⟩] }

/-- Opens a span inside the open ones. -/
def openSpan (j : Journal) (span : Trace.Span) : Journal :=
  { j with spans := j.spans ++ [span] }

/-- Records a field on the innermost open span. -/
def recordField (j : Journal) (label : String) (value : Trace.FieldValue) : Journal :=
  match j.spans.getLast? with
  | some span => { j with spans := j.spans.dropLast ++ [span.record label value] }
  | none => j

/-- Closes all spans but the given number of outermost ones. -/
def closeTo (j : Journal) (depth : Nat) : Journal := { j with spans := j.spans.take depth }

/-- Forgets the log and the trace. -/
def cleared (j : Journal) : Journal := { j with log := [], spans := [], events := [] }

end Journal

/-- Worlds that keep a journal. -/
class HasJournal (W : Type) where
  journal : W → Journal
  change : (Journal → Journal) → W → W

instance : HasJournal Journal := ⟨id, fun change j => change j⟩

namespace Plan

variable {E W : Type} [HasJournal W]

/-- Changes the journal and goes on. -/
def recording (change : Journal → Journal) (resume : Plan E W) : Plan E W :=
  doing (HasJournal.change change) resume

end Plan

/-- The message with which an engine reports a failed callback. -/
def Engine.failureMessage : Engine → String
  | blocking => "handler callback failed"
  | suspending => "async handler callback failed"

/-- The monitor that reports dispatches and failed callbacks in the trace. -/
def Engine.reporting {E W : Type} [HasJournal W] (engine : Engine) : Monitor E W
  | .dispatching path =>
      HasJournal.change (·.emit .trace "dispatching" [("path", .text path)])
  | .failed _ ctx failure =>
      HasJournal.change
        (·.emit .debug engine.failureMessage
          [("pattern", .text ctx.predicate.pattern.text), ("error", .text failure.message)])
  | .entered _ | .left _ | .called _ _ | .returned _ _ => id

end RequestRouting
