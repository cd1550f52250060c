import RequestRouting.Journal

/-!
# Scripts

Callbacks written as lists of actions. An action changes the context, writes a log
line about it, chooses between lists of actions, runs the rest of the chain, waits, or
ends the callback with a failure. A script that comes to its end returns its context.

The context of a script is a value: what an action does to it is lost if a later
action fails, while log lines stay.
-/

namespace RequestRouting

/-- One action of a script. -/
inductive Action (E : Type)
  /-- Changes the context, or fails. -/
  | change (apply : Context E → Except Failure (Context E))
  /-- Writes a log line. -/
  | note (line : Context E → String)
  | count
  | panic (payload : PanicPayload)
  /-- Does what the first list says if the test holds, else what the second says. -/
  | branch (test : Context E → Bool) (yes no : List (Action E))
  /-- Runs the rest of the chain and goes on with its result. -/
  | next
  /-- Runs the rest of the chain on a copy and drops the result. -/
  | fork
  | pause (how : Pause)
  | abort

/-- A list of actions. -/
abbrev Script (E : Type) := List (Action E)

namespace Script

variable {E W : Type} [HasJournal W]

mutual

/-- The plan of one action, going on with `rest`. -/
def actionPlan (action : Action E) (rest : Context E → Plan E W) (ctx : Context E) :
    Plan E W :=
  match action with
  | .change apply =>
      match apply ctx with
      | .ok ctx => rest ctx
      | .error failure => .fail failure
  | .note line => .recording (·.write (line ctx)) (rest ctx)
  | .count => .recording (·.countUp) (rest ctx)
  | .panic payload => .panic payload
  | .branch test yes no => if test ctx then plan yes rest ctx else plan no rest ctx
  | .next => .next ctx rest
  | .fork => .next ctx fun _ => rest ctx
  | .pause how => .pause how (rest ctx)
  | .abort => .abort (rest ctx)

/-- The plan of a script, going on with `rest`. -/
def plan (script : List (Action E)) (rest : Context E → Plan E W) (ctx : Context E) :
    Plan E W :=
  match script with
  | [] => rest ctx
  | action :: script => actionPlan action (plan script rest) ctx

end

/-- The callback that carries out a script. -/
def callback (script : Script E) : Callback E W := plan script .done

end Script

/-! ## Conditions on events -/

/-- What scripts need to know about events. -/
class Scriptable (E : Type) extends Routable E where
  /-- The event with another path. -/
  withPath : E → String → E
  /-- Whether the event carries a header. -/
  hasHeader : E → String → Bool
  /-- Whether the event has been answered. -/
  hasResponse : E → Bool

/-- Conditions that predicates and scripts put on events. -/
inductive Condition
  /-- The path has at least so many bytes. -/
  | minLength (bytes : Nat)
  | pathEnds (ending : String)
  | pathMentions (part : String)
  | hasHeader (name : String)
  | hasResponse (expected : Bool)
  | not (condition : Condition)
  deriving DecidableEq, Repr

/-- Whether an event meets a condition. -/
def Condition.holds {E : Type} [Scriptable E] : Condition → E → Bool
  | minLength bytes, event => bytes ≤ (Routable.path event).utf8ByteSize
  | pathEnds ending, event =>
      ending.toList.isSuffixOf (Routable.path event).toList
  | pathMentions part, event => hasPart (Routable.path event) part
  | hasHeader name, event => Scriptable.hasHeader event name
  | hasResponse expected, event => Scriptable.hasResponse event == expected
  | not condition, event => !condition.holds event

/-! ## Actions -/

namespace Action

variable {E : Type}

/-- Changes the context. -/
def update (apply : Context E → Context E) : Action E := change fun ctx => .ok (apply ctx)

/-- Adds an entry to the trace that a context carries in its attributes. -/
def mark (entry : String) : Action E :=
  update fun ctx =>
    let entries :=
      match ctx.attributes.get? "trace" with
      | some (.texts entries) => entries
      | _ => []
    ctx.withAttribute "trace" (.texts (entries ++ [entry]))

/-- Writes a log line. -/
def log (line : String) : Action E := note fun _ => line

/-- Fails. -/
def fail (failure : Failure) : Action E := change fun _ => .error failure

/-- Logs a path parameter. -/
def logParameter (name : String) : Action E :=
  note fun ctx =>
    match ctx.parameter? name with
    | some value => name ++ "=" ++ value
    | none => name ++ " missing"

/-- Logs the state of the context. -/
def probe : Action E :=
  note fun ctx =>
    "[" ++ ctx.predicate.pattern.text ++ "] prefix=" ++
      toString ctx.predicate.pattern.matchesLeading ++
      " cond=" ++ toString ctx.predicate.condition.isSome ++
      " handled=" ++ toString ctx.handled ++
      " exc=" ++ (ctx.exception.map Failure.message).getD "-" ++
      " keys=" ++ ",".intercalate ctx.attributes.keys

/-- Fails unless the pattern of the context matches a path; then logs the values that
it extracts. -/
def extract (path : String) : List (Action E) :=
  [change fun ctx =>
      match ctx.predicate.pattern.extract path with
      | .ok _ => .ok ctx
      | .error error => .error (.path error),
    note fun ctx =>
      match ctx.predicate.pattern.extract path with
      | .ok parameters =>
          let pairs := parameters.map fun (name, value) => name ++ "=" ++ value
          "&".intercalate (pairs.mergeSort fun first second => decide (first ≤ second))
      | .error _ => ""]

/-- Starts over with a fresh context for the event, outside any chain. -/
def fresh : Action E := update fun ctx => Context.ofEvent ctx.event

/-- Replaces the path of the event. -/
def setPath [Scriptable E] (path : String) : Action E :=
  update fun ctx => ctx.mapEvent fun event => Scriptable.withPath event path

/-- Extends the path of the event. -/
def appendPath [Scriptable E] (ending : String) : Action E :=
  update fun ctx =>
    ctx.mapEvent fun event => Scriptable.withPath event (Routable.path event ++ ending)

end Action

/-- Tests of scripts. -/
inductive ScriptTest
  | exception (matcher : Matcher)
  | handled (expected : Bool)
  | parameter (name : String) (expected : Option String)
  | hasAttribute (key : String)
  | event (condition : Condition)

/-- Whether a context passes a test. -/
def ScriptTest.holds {E : Type} [Scriptable E] (test : ScriptTest) (ctx : Context E) : Bool :=
  match test with
  | .exception matcher => ctx.exception.any matcher.accepts
  | .handled expected => ctx.handled == expected
  | .parameter name expected => ctx.parameter? name == expected
  | .hasAttribute key => ctx.attributes.contains key
  | .event condition => condition.holds ctx.event

/-- A script that logs a mark and leaves the context as it is. -/
def Script.recorder {E : Type} (mark : String) : Script E := [.log mark]

/-- A script that logs a mark before and after the rest of the chain. -/
def Script.around {E : Type} (mark : String) : Script E :=
  [.log (mark ++ ":before"), .next, .log (mark ++ ":after")]

/-- A script that counts its calls. -/
def Script.counter {E : Type} : Script E := [.count]

end RequestRouting
