import RequestRouting.Dispatch.Carried

/-!
# Programs over contexts

The operations that contexts offer to callbacks, as a language. A program holds contexts in
slots. It makes new contexts from the ones it holds, or for an event; it goes on with any of
them in its chain, as often as it likes, and holds what comes back; it decides by what it
sees of them; and it ends with one of them or with a failure. What it has put into a slot
stays there, so it can go on with a context and still hold the one from before.

A program may keep contexts in the world, and attributes may refer to them there, but there
is no operation that takes a context out of the world: what a program goes on with comes
from the context that it was called with, from what came back to it, or from nowhere.
-/

namespace RequestRouting.Carried

/-- A program that holds contexts in a number of slots. What it makes or gets goes into a new
slot in front of the others. -/
inductive Program (E W : Type) : Nat → Type
  /-- Returns the context in a slot. -/
  | done {held : Nat} (slot : Fin held) : Program E W held
  /-- Returns a failure. -/
  | fail {held : Nat} (failure : Failure) : Program E W held
  | panic {held : Nat} (payload : PanicPayload) : Program E W held
  /-- Decides by what it sees of the contexts it holds. -/
  | look {held : Nat} (resume : (Fin held → Context E) → Program E W held) : Program E W held
  /-- Makes a context from the one in a slot. -/
  | update {held : Nat} (slot : Fin held) (change : Context E → Context E)
      (resume : Program E W (held + 1)) : Program E W held
  /-- Makes a context for an event, outside any chain. -/
  | create {held : Nat} (event : E) (resume : Program E W (held + 1)) : Program E W held
  /-- Goes on with the context in a slot in its chain. -/
  | next {held : Nat} (slot : Fin held) (resume : Program E W (held + 1)) : Program E W held
  /-- Changes the world, where it may keep contexts, and goes on with a look at it. -/
  | act {held : Nat} (update : (Fin held → Located E) → W → W) (resume : W → Program E W held) :
      Program E W held

namespace Program

variable {E W : Type}

/-- The contexts in the slots, with a new one in front. -/
def hold {held : Nat} (l : Located E) (slots : Fin held → Located E) :
    Fin (held + 1) → Located E :=
  Fin.cases l slots

/-- What a program does with the contexts that it holds. -/
def plan {held : Nat} : Program E W held → (Fin held → Located E) → Plan E W
  | done slot, slots => .done (slots slot)
  | fail failure, _ => .fail failure
  | panic payload, _ => .panic payload
  | look resume, slots => (resume fun slot => (slots slot).ctx).plan slots
  | update slot change resume, slots => resume.plan (hold ((slots slot).update change) slots)
  | create event resume, slots => resume.plan (hold (.ofEvent event) slots)
  | next slot resume, slots => .next (slots slot) fun result => resume.plan (hold result slots)
  | act change resume, slots => .act (change slots) fun world => (resume world).plan slots

/-- The callback that starts a program with the context that it is called with. -/
def callback (program : Program E W 1) : Callback E W := fun l => program.plan fun _ => l

end Program

end RequestRouting.Carried
