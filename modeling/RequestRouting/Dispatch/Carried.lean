import RequestRouting.Dispatch.Dispatcher

/-!
# Contexts that carry their chain

In the blocking engine, `next` is the walk through the handlers behind the one that runs.
Here a context carries its chain and its place in it, and `next` goes by what the context
carries, whichever handler has it in hands. A callback may keep a context in the world, put
a reference to it into an attribute, and hand it on later; then a handler can run again
while it runs. Nothing but the contexts keeps a dispatch from going on like that for ever,
so the engine has a bound on how deeply handlers run inside each other.

Conditions and the matchers of exception handlers may panic. Such a panic takes down the
handlers that run, up to the nearest callback that runs the rest of its chain; there it
counts as a failure of that callback. Where there is none, it takes down the dispatch.

For callbacks that go on with contexts made from the one they are called with, and
conditions and matchers that do not panic, both engines do the same
(`Carried.Dispatcher.process_eq`).
-/

namespace RequestRouting

/-- A context with the chain that it is attached to, by the address of that chain. -/
structure Located (E : Type) where
  ctx : Context E
  /-- Contexts outside any chain have none. -/
  chain : Option Address

/-- A decision, which may panic. -/
abbrev Verdict := Except PanicPayload Bool

/-- When a handler applies: its pattern has to match the path of the event, and its
condition has to hold of the event. The condition is not asked if the pattern does not
match. -/
structure Guard (E : Type) where
  pattern : Pattern
  condition : Option (E → Verdict) := none

namespace Guard

variable {E : Type}

/-- The guard that accepts every event. -/
def any : Guard E := ⟨Pattern.any, none⟩

/-- The guard that decides as a predicate does. -/
def ofPredicate (p : Predicate E) : Guard E :=
  ⟨p.pattern, p.condition.map fun condition event => .ok (condition event)⟩

/-- Adds a condition, which is asked if the ones before hold. -/
def withCondition (g : Guard E) (condition : E → Verdict) : Guard E :=
  { g with
    condition := some fun event => do
      let holds ← g.condition.elim (.ok true) (· event)
      if holds then condition event else .ok false }

/-- Whether the handler applies to an event. -/
def accepts [Routable E] (g : Guard E) (event : E) : Verdict :=
  if g.pattern.accepts (Routable.path event) then g.condition.elim (.ok true) (· event)
  else .ok false

/-- The guard under an outer pattern; the condition stays. -/
def mount (outer : Pattern) (g : Guard E) : Except PatternError (Guard E) :=
  (Pattern.join outer g.pattern).map fun pattern => { g with pattern }

/-- The predicate that accepts what the guard accepts; a panic counts as a refusal. -/
def predicate (g : Guard E) : Predicate E :=
  ⟨g.pattern, g.condition.map fun condition event => (condition event).toOption.getD false⟩

end Guard

namespace Located

variable {E : Type}

/-- A context for an event, outside any chain. -/
def ofEvent (event : E) : Located E := ⟨Context.ofEvent event, none⟩

/-- Changes what handlers may change of a context. The predicate, the chain and the place
in it stay. -/
def update (change : Context E → Context E) (l : Located E) : Located E :=
  { l with ctx := { change l.ctx with predicate := l.ctx.predicate, position := l.ctx.position } }

/-- Records a failure. -/
def withException (l : Located E) (failure : Failure) : Located E :=
  { l with ctx := l.ctx.withException failure }

/-- Forgets the recorded failure. -/
def withoutException (l : Located E) : Located E := { l with ctx := l.ctx.withoutException }

/-- At the start of the chain of the group at an address. -/
def enter (l : Located E) (address : Address) : Located E := ⟨l.ctx.enter, some address⟩

/-- Back in the chain around a group, at the place that the context had which went into
the group. -/
def leave (l outer : Located E) : Located E := ⟨l.ctx.leave outer.ctx.position, outer.chain⟩

/-- At the end of a chain of the given length. -/
def atEnd (l : Located E) (length : Nat) : Located E := { l with ctx := l.ctx.atEnd length }

/-- The context as the handler at `index` receives it. -/
def select [Routable E] (l : Located E) (g : Guard E) (index : Nat) : Located E :=
  { l with ctx := l.ctx.select g.predicate index }

end Located

/-- A context in the chain at an address, or outside any chain. -/
def Context.inChain {E : Type} (ctx : Context E) (address : Address) : Located E :=
  ⟨ctx, if ctx.position.attached then some address else none⟩

@[simp]
theorem Context.ctx_inChain {E : Type} (ctx : Context E) (address : Address) :
    (ctx.inChain address).ctx = ctx := rfl

namespace Carried

/-! ## Handlers -/

/-- What a callback does, step by step, with contexts that carry their chain. -/
inductive Plan (E W : Type)
  /-- Returns a context. -/
  | done (l : Located E)
  /-- Returns a failure. -/
  | fail (failure : Failure)
  | panic (payload : PanicPayload)
  /-- Goes on with a context in its chain and then with the result. -/
  | next (l : Located E) (resume : Located E → Plan E W)
  /-- Changes the world and goes on with a look at it. -/
  | act (update : W → W) (resume : W → Plan E W)

/-- A callback of a handler. -/
abbrev Callback (E W : Type) := Located E → Plan E W

/-- A step of request handling. -/
inductive Handler (E W : Type)
  | on (guard : Guard E) (callback : Callback E W)
  | after (guard : Guard E) (callback : Callback E W)
  | filter (guard : Guard E) (callback : Callback E W)
  /-- `clears` says whether a callback that succeeds puts the exception away. -/
  | recover (guard : Guard E) (accepts : Failure → Verdict) (callback : Callback E W)
      (clears : Bool)
  | group (guard : Guard E) (handlers : List (Handler E W))

namespace Handler

variable {E W : Type}

/-- When the handler applies. -/
def guard : Handler E W → Guard E
  | on g _ | after g _ | filter g _ | recover g _ _ _ | group g _ => g

/-- Whether the handler answers requests instead of wrapping them. -/
def isTerminal : Handler E W → Bool
  | on .. => true
  | _ => false

/-- The callback of a handler, which groups lack. -/
def callback? : Handler E W → Option (Callback E W)
  | on _ callback | after _ callback | filter _ callback | recover _ _ callback _ =>
      some callback
  | group _ _ => none

/-- The chain inside a handler, which is empty for all but groups. -/
def inside : Handler E W → List (Handler E W)
  | group _ handlers => handlers
  | on _ _ | after _ _ | filter _ _ | recover _ _ _ _ => []

mutual

/-- Mounts a handler under an outer pattern, and with it all handlers inside. -/
def mount (outer : Pattern) : Handler E W → Except PatternError (Handler E W)
  | on g callback => do
      let g ← g.mount outer
      .ok (on g callback)
  | after g callback => do
      let g ← g.mount outer
      .ok (after g callback)
  | filter g callback => do
      let g ← g.mount outer
      .ok (filter g callback)
  | recover g accepts callback clears => do
      let g ← g.mount outer
      .ok (recover g accepts callback clears)
  | group g handlers => do
      let g ← g.mount outer
      let handlers ← mountAll outer handlers
      .ok (group g handlers)

/-- Mounts each handler of a chain. -/
def mountAll (outer : Pattern) : List (Handler E W) → Except PatternError (List (Handler E W))
  | [] => .ok []
  | h :: rest => do
      let h ← mount outer h
      let rest ← mountAll outer rest
      .ok (h :: rest)

end

/-- A group of handlers, each mounted under the pattern of the group. -/
def groupOf (g : Guard E) (handlers : List (Handler E W)) : Except PatternError (Handler E W) :=
  (mountAll g.pattern handlers).map (group g)

/-- The chain at an address of a tree. -/
def chainAt : List (Handler E W) → Address → List (Handler E W)
  | handlers, [] => handlers
  | handlers, index :: address =>
      match handlers[index]? with
      | some h => chainAt h.inside address
      | none => []

end Handler

/-! ## Parts of a dispatch -/

/-- A part of a dispatch in an observed world. It comes to a result, or an error ends it
early; `none` means that handlers would have to run more deeply inside each other than the
engine lets them. -/
def Part (ε E W α : Type) := Observed E W → Option (Except ε α × Observed E W)

namespace Part

variable {ε E W α β : Type}

/-- Comes to a result at once. -/
def done (result : α) : Part ε E W α := fun o => some (.ok result, o)

/-- Ends early. -/
def fail (error : ε) : Part ε E W α := fun o => some (.error error, o)

/-- Would have to go too deep. -/
def lost : Part ε E W α := fun _ => none

/-- What has been decided. -/
def ofExcept (decided : Except ε α) : Part ε E W α := fun o => some (decided, o)

/-- Goes on with the result. -/
def andThen (part : Part ε E W α) (onward : α → Part ε E W β) : Part ε E W β := fun o =>
  match part o with
  | none => none
  | some (.error error, o) => some (.error error, o)
  | some (.ok result, o) => onward result o

/-- Goes on however the part ends. -/
def inAnyCase {δ : Type} (part : Part ε E W α) (onward : Except ε α → Part δ E W β) :
    Part δ E W β := fun o =>
  match part o with
  | none => none
  | some (outcome, o) => onward outcome o

/-- Changes the observed world first. -/
def changing (change : Observed E W → Observed E W) (part : Part ε E W α) : Part ε E W α :=
  fun o => part (change o)

end Part

/-! ## The engine -/

section Engine

variable {E W : Type}

/-- Carries out a plan. A panic that comes out of the rest of the chain is a failure of the
callback. -/
def Plan.run (next : Located E → Part PanicPayload E W (Located E)) :
    Plan E W → Part Failure E W (Located E)
  | .done l => .done l
  | .fail failure => .fail failure
  | .panic payload => .fail payload.failure
  | .next l resume =>
      (next l).inAnyCase fun
        | .ok result => (resume result).run next
        | .error payload => .fail payload.failure
  | .act update resume => fun o =>
      (resume (update o.world)).run next (o.change update)

variable (monitor : Monitor E W)

/-- Gives a notice first. -/
def noting {ε α : Type} (notice : Notice E) (part : Part ε E W α) : Part ε E W α :=
  part.changing (monitor.observed notice)

/-- Calls a callback. After a failure the context that went in continues, with the failure
recorded. The flag says whether the callback succeeded. -/
def invoke (address : Address) (callback : Callback E W)
    (next : Located E → Part PanicPayload E W (Located E)) (l : Located E) :
    Part PanicPayload E W (Bool × Located E) :=
  noting monitor (.called address l.ctx) <|
    ((callback l).run next).inAnyCase fun
      | .ok result => noting monitor (.returned address result.ctx) (.done (true, result))
      | .error failure =>
          noting monitor (.failed address l.ctx failure) (.done (false, l.withException failure))

/-- Runs a handler that has been selected. -/
def process (h : Handler E W) (address : Address)
    (next : Located E → Part PanicPayload E W (Located E)) (l : Located E) :
    Part PanicPayload E W (Located E) :=
  match h with
  | .on _ callback => (invoke monitor address callback next l).andThen fun call => next call.2
  | .after _ callback =>
      (next l).andThen fun l =>
        (invoke monitor address callback next l).andThen fun call => .done call.2
  | .filter _ callback =>
      (invoke monitor address callback next l).andThen fun call =>
        if call.1 then .done call.2 else next call.2
  | .recover _ accepts callback clears =>
      (next l).andThen fun l =>
        match l.ctx.exception with
        | none => .done l
        | some failure =>
            (Part.ofExcept (accepts failure)).andThen fun accepted =>
              if accepted then
                (invoke monitor address callback next l).andThen fun call =>
                  .done (if call.1 && clears then call.2.withoutException else call.2)
              else .done l
  | .group _ _ => (next (l.enter address)).andThen fun inner => next (inner.leave l)

/-- Lets a handler run. However it ends, it is done then. -/
def activate (address : Address) (part : Part PanicPayload E W (Located E)) :
    Part PanicPayload E W (Located E) :=
  noting monitor (.entered address) <|
    part.inAnyCase fun outcome => noting monitor (.left address) (.ofExcept outcome)

variable [Routable E]

/-- Whether a context would go into a handler at `index` of its chain, were it not for the
guard of the handler. -/
def mayGoInto (ctx : Context E) (index : Nat) (h : Handler E W) : Bool :=
  ctx.position.cursor ≤ index &&
    (!ctx.handled || (ctx.position.resumed && !h.isTerminal)) &&
    (ctx.exception.isNone || !h.isTerminal)

/-- The first handler of a chain, counted from `index`, that a context goes into. Only the
guards of handlers that it may go into are asked. -/
def upcoming? (ctx : Context E) :
    Nat → List (Handler E W) → Except PanicPayload (Option (Nat × Handler E W))
  | _, [] => .ok none
  | index, h :: rest =>
      if mayGoInto ctx index h then
        match h.guard.accepts ctx.event with
        | .error payload => .error payload
        | .ok true => .ok (some (index, h))
        | .ok false => upcoming? ctx (index + 1) rest
      else upcoming? ctx (index + 1) rest

/-- Goes on with a context in the chain that it carries; `run` runs the handler that the
context goes into. -/
def advance (root : List (Handler E W))
    (run : Handler E W → Address → Located E → Part PanicPayload E W (Located E))
    (l : Located E) : Part PanicPayload E W (Located E) :=
  match l.chain with
  | none => .done l
  | some chain =>
      match upcoming? l.ctx 0 (Handler.chainAt root chain) with
      | .error payload => .fail payload
      | .ok none => .done (l.atEnd (Handler.chainAt root chain).length)
      | .ok (some (index, h)) => run h (chain ++ [index]) (l.select h.guard index)

/-- Goes on with a context in a tree of handlers, with handlers running inside each other to
the given depth at most. -/
def next (root : List (Handler E W)) : Nat → Located E → Part PanicPayload E W (Located E)
  | 0 => advance root fun _ _ _ => .lost
  | depth + 1 => advance root fun h address l =>
      activate monitor address (process monitor h address (next root depth) l)

end Engine

/-! ## Dispatchers -/

/-- A tree of handlers to send events through. -/
structure Dispatcher (E W : Type) where
  root : Handler E W

namespace Dispatcher

variable {E W : Type}

/-- The dispatcher for a list of handlers. -/
def ofHandlers (handlers : List (Handler E W)) : Except PatternError (Dispatcher E W) :=
  (Handler.groupOf Guard.any handlers).map Dispatcher.mk

/-- The context with which a dispatch starts. -/
def startContext (event : E) (attributes : Attributes) : Located E :=
  ⟨RequestRouting.Dispatcher.startContext event attributes, some []⟩

/-- Sends an event through the tree, with handlers running inside each other to the given
depth at most. -/
def process [Routable E] (d : Dispatcher E W) (monitor : Monitor E W) (event : E)
    (attributes : Attributes) (depth : Nat) : Part PanicPayload E W (Located E) :=
  noting monitor (.dispatching (Routable.path event)) <|
    next monitor [d.root] depth (startContext event attributes)

end Dispatcher

end Carried

/-! ## Handlers of the blocking engine -/

/-- The plan with contexts that carry their chain; the ones in a chain are in that of the
handler. Waits take no time and limits are never reached. -/
def Plan.carried {E W : Type} (chain : Address) : Plan E W → Carried.Plan E W
  | done ctx => .done (ctx.inChain chain)
  | fail failure => .fail failure
  | panic payload => .panic payload
  | next ctx resume => .next (ctx.inChain chain) fun l => (resume l.ctx).carried chain
  | act update resume => .act update fun world => (resume world).carried chain
  | pause _ resume | abort resume => resume.carried chain
  | limited _ ctx resume =>
      .next (ctx.inChain chain) fun l => (resume (some l.ctx)).carried chain

namespace Handler

variable {E W : Type}

mutual

/-- The handler with contexts that carry their chain, in the chain at an address. -/
def carried (h : Handler E W) (chain : Address) (index : Nat) : Carried.Handler E W :=
  match h with
  | on p callback => .on (.ofPredicate p) fun l => (callback l.ctx).carried chain
  | after p callback => .after (.ofPredicate p) fun l => (callback l.ctx).carried chain
  | filter p callback => .filter (.ofPredicate p) fun l => (callback l.ctx).carried chain
  | recover p accepts callback clears =>
      .recover (.ofPredicate p) (fun failure => .ok (accepts failure))
        (fun l => (callback l.ctx).carried chain) clears
  | group p handlers => .group (.ofPredicate p) (carriedAll handlers (chain ++ [index]) 0)

/-- The handlers of the chain at an address, from an index on, with contexts that carry
their chain. -/
def carriedAll (handlers : List (Handler E W)) (chain : Address) (index : Nat) :
    List (Carried.Handler E W) :=
  match handlers with
  | [] => []
  | h :: rest => carried h chain index :: carriedAll rest chain (index + 1)

end

end Handler

/-- The dispatcher with contexts that carry their chain. -/
def Dispatcher.carried {E W : Type} (d : Dispatcher E W) : Carried.Dispatcher E W :=
  ⟨d.root.carried [] 0⟩

end RequestRouting
