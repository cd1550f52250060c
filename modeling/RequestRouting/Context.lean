import RequestRouting.Attributes
import RequestRouting.Failure
import RequestRouting.Predicate

/-!
# Contexts

The state that handlers pass on: the event, the predicate of the latest handler,
the attributes, a captured exception, whether the request has been answered, and
the place in the chain of handlers. A context is a value; every update gives a new
one.
-/

namespace RequestRouting

/-- A place in a chain of handlers. -/
structure Position where
  /-- A context outside any chain has no handlers ahead. -/
  attached : Bool
  /-- Index of the next candidate. -/
  cursor : Nat
  /-- The request had been answered when this chain took over, either on entry or
  when a group inside it returned. Then only `on` handlers are passed over. -/
  resumed : Bool
  deriving DecidableEq, Repr

/-- Outside any chain. -/
def Position.detached : Position := ⟨false, 0, false⟩

/-- The state of a request on its way through the handlers. -/
structure Context (E : Type) where
  event : E
  predicate : Predicate E
  attributes : Attributes
  exception : Option Failure
  handled : Bool
  position : Position

namespace Context

variable {E : Type}

/-- A context for an event, outside any chain. -/
def ofEvent (event : E) : Context E :=
  ⟨event, Predicate.any, Attributes.empty, none, false, Position.detached⟩

/-- Replaces the event. -/
def withEvent (ctx : Context E) (event : E) : Context E := { ctx with event }

/-- Changes the event. -/
def mapEvent (ctx : Context E) (change : E → E) : Context E :=
  { ctx with event := change ctx.event }

/-- Sets an attribute. -/
def withAttribute (ctx : Context E) (key : String) (value : AttributeValue) : Context E :=
  { ctx with attributes := ctx.attributes.insert key value }

/-- Takes over attributes; the given ones win. -/
def withAttributes (ctx : Context E) (attributes : Attributes) : Context E :=
  { ctx with attributes := ctx.attributes.extend attributes }

/-- Records a failure. -/
def withException (ctx : Context E) (failure : Failure) : Context E :=
  { ctx with exception := some failure.exception }

/-- Forgets the recorded failure. -/
def withoutException (ctx : Context E) : Context E := { ctx with exception := none }

/-- Says whether the request has been answered. -/
def withHandled (ctx : Context E) (handled : Bool) : Context E := { ctx with handled }

/-- A path parameter. -/
def parameter? (ctx : Context E) (name : String) : Option String :=
  ctx.attributes.text? name

/-- At the start of a chain. -/
def atChain (ctx : Context E) : Context E := { ctx with position := ⟨true, 0, false⟩ }

/-- At the start of the chain of a group. -/
def enter (ctx : Context E) : Context E :=
  { ctx with position := ⟨true, 0, ctx.handled⟩ }

/-- Back in the chain around a group, at the position from before it. -/
def leave (ctx : Context E) (parent : Position) : Context E :=
  { ctx with position := { parent with resumed := parent.resumed || ctx.handled } }

/-- At the end of a chain of the given length. -/
def atEnd (ctx : Context E) (length : Nat) : Context E :=
  { ctx with position := { ctx.position with cursor := length } }

/-- The context as the handler at `index` receives it: past that handler, under its
predicate, and with the parameters that its pattern extracts. -/
def select [Routable E] (ctx : Context E) (predicate : Predicate E) (index : Nat) :
    Context E :=
  let attributes :=
    if predicate.pattern.hasCaptures then
      match predicate.pattern.extract (Routable.path ctx.event) with
      | .ok parameters => ctx.attributes.mergeParameters parameters
      | .error _ => ctx.attributes
    else ctx.attributes
  { ctx with
    predicate, attributes
    position := { ctx.position with cursor := index + 1 } }

/-- The context for diagnostics; `eventText` shows the event. -/
def debug (eventText : E → String) (ctx : Context E) : String :=
  let exception :=
    match ctx.exception with
    | some failure => "Some(" ++ failure.debug ++ ")"
    | none => "None"
  Text.recordText "Context"
    [("event", eventText ctx.event), ("predicate", ctx.predicate.debug),
      ("attributes", ctx.attributes.debug), ("exception", exception),
      ("handled", toString ctx.handled), ("cursor", toString ctx.position.cursor)]

end Context

end RequestRouting
