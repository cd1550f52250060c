import RequestRouting.Pattern.Basic

/-!
# Predicates

When a handler applies: its pattern has to match the path of the event, and its
condition, if it has one, the event itself.
-/

namespace RequestRouting

/-- What can be routed has a path. -/
class Routable (E : Type) where
  path : E → String

/-- Decides whether a handler applies to an event. -/
structure Predicate (E : Type) where
  pattern : Pattern
  condition : Option (E → Bool) := none

namespace Predicate

variable {E : Type}

/-- The predicate that accepts every event. -/
def any : Predicate E := ⟨Pattern.any, none⟩

/-- The predicate for a pattern text. -/
def ofPath (text : String) (extent : Extent) : Except PatternError (Predicate E) :=
  (Pattern.parse text extent).map fun pattern => ⟨pattern, none⟩

/-- Adds a condition; all conditions have to hold. -/
def withCondition (p : Predicate E) (condition : E → Bool) : Predicate E :=
  { p with
    condition := some fun event => p.condition.all (· event) && condition event }

/-- Whether the handler applies to an event. -/
def accepts [Routable E] (p : Predicate E) (event : E) : Bool :=
  p.pattern.accepts (Routable.path event) && p.condition.all (· event)

/-- The predicate under an outer pattern; the condition stays. -/
def mount (outer : Pattern) (p : Predicate E) : Except PatternError (Predicate E) :=
  (Pattern.join outer p.pattern).map fun pattern => { p with pattern }

/-- The predicate for diagnostics. -/
def debug (p : Predicate E) : String :=
  Text.recordText "Predicate"
    [("pattern", Text.quoted p.pattern.text),
      ("prefix", toString p.pattern.matchesLeading),
      ("condition", toString p.condition.isSome)]

end Predicate

end RequestRouting
