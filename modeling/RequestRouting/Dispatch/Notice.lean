import RequestRouting.Handler

/-!
# Notices

What an engine lets the world know while it walks a tree of handlers. A handler is
named by its address, the indices on the way to it from the outermost chain. Both
engines give the same notices at the same points.
-/

namespace RequestRouting

/-- The indices on the way from the outermost chain to a handler. -/
abbrev Address := List Nat

/-- What happens during a dispatch. -/
inductive Notice (E : Type)
  /-- An event with the given path is about to be dispatched. -/
  | dispatching (path : String)
  /-- The handler has been selected and begins. -/
  | entered (address : Address)
  /-- The handler is done. -/
  | left (address : Address)
  /-- The callback of the handler is called with a context. -/
  | called (address : Address) (ctx : Context E)
  /-- The callback that was called has come back with a context. -/
  | returned (address : Address) (ctx : Context E)
  /-- The callback that was called with the context has failed. -/
  | failed (address : Address) (ctx : Context E) (failure : Failure)

/-- How the world takes notice. -/
abbrev Monitor (E W : Type) := Notice E → W → W

/-- Takes no notice. -/
def Monitor.silent {E W : Type} : Monitor E W := fun _ world => world

/-- A world with the notices that have been given in it, oldest first. -/
structure Observed (E W : Type) where
  world : W
  notices : List (Notice E)

/-- Changes the world and leaves the record alone. -/
def Observed.change {E W : Type} (update : W → W) (o : Observed E W) : Observed E W :=
  { o with world := update o.world }

/-- The monitor that also keeps a record. -/
def Monitor.observed {E W : Type} (monitor : Monitor E W) : Monitor E (Observed E W) :=
  fun notice o => ⟨monitor notice o.world, o.notices ++ [notice]⟩

/-- Whether a context goes into a handler at `index` of its chain. Handlers before
the cursor are passed over. An answered request ends the chain unless it had been
answered before; then, as after an exception, only handlers that answer are passed
over. -/
def Context.goesInto {E W : Type} [Routable E] (ctx : Context E) (index : Nat)
    (h : Handler E W) : Bool :=
  ctx.position.cursor ≤ index &&
    (!ctx.handled || (ctx.position.resumed && !h.isTerminal)) &&
    (ctx.exception.isNone || h.runsOnFailure) &&
    h.predicate.accepts ctx.event

end RequestRouting
