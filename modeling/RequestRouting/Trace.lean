import RequestRouting.Text.Quoted

/-!
# Trace events

What the router reports while it works: events with a level, a message and
labelled fields, each with the spans that were open when it was emitted,
outermost first.
-/

namespace RequestRouting.Trace

/-- How important an event is. -/
inductive Level
  | trace
  | debug
  | info
  | warn
  | error
  deriving DecidableEq, Repr

/-- The name of a level. -/
def Level.name : Level → String
  | trace => "TRACE"
  | debug => "DEBUG"
  | info => "INFO"
  | warn => "WARN"
  | error => "ERROR"

/-- The value of a field. -/
inductive FieldValue
  | text (value : String)
  | number (value : Nat)
  | flag (value : Bool)
  deriving DecidableEq, Repr

/-- Labelled values in the order in which they were recorded. -/
abbrev Fields := List (String × FieldValue)

/-- A stretch of work with what has been recorded about it. -/
structure Span where
  name : String
  fields : Fields
  deriving DecidableEq, Repr

/-- Records a further field. -/
def Span.record (span : Span) (label : String) (value : FieldValue) : Span :=
  { span with fields := span.fields ++ [(label, value)] }

/-- An emitted event. -/
structure Event where
  level : Level
  message : String
  fields : Fields
  spans : List Span := []
  deriving DecidableEq, Repr

end RequestRouting.Trace
