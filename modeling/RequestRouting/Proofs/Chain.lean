import RequestRouting.Dispatch.Blocking

/-!
# Chains of handlers

A chain is a list of handlers, some of which are groups with chains of their own. Both
engines walk chains, so what holds of every walk is proved by one induction: over the
chain, and in it over the chains of its groups. Conditions on handlers are put on a
whole tree by `Handler.Throughout`, which shows each handler together with the handlers
behind it, the ones that `next` can reach from it.
-/

namespace RequestRouting.Handler

variable {E W : Type}

/-- The chain inside a handler, which is empty for all but groups. -/
def inside : Handler E W → List (Handler E W)
  | group _ handlers => handlers
  | on _ _ | after _ _ | filter _ _ | recover _ _ _ _ => []

/-- The callback of a handler, which groups lack. -/
def callback? : Handler E W → Option (Callback E W)
  | on _ callback | after _ callback | filter _ callback | recover _ _ callback _ =>
      some callback
  | group _ _ => none

/-- Induction over a chain and the chains inside its handlers. -/
@[elab_as_elim]
theorem chainInduction {motive : List (Handler E W) → Prop} (nil : motive [])
    (cons : ∀ h rest, motive h.inside → motive rest → motive (h :: rest)) :
    ∀ handlers, motive handlers
  | [] => nil
  | .group p handlers :: rest =>
      cons (group p handlers) rest (chainInduction nil cons handlers)
        (chainInduction nil cons rest)
  | .on p callback :: rest =>
      cons (on p callback) rest nil (chainInduction nil cons rest)
  | .after p callback :: rest =>
      cons (after p callback) rest nil (chainInduction nil cons rest)
  | .filter p callback :: rest =>
      cons (filter p callback) rest nil (chainInduction nil cons rest)
  | .recover p accepts callback clears :: rest =>
      cons (recover p accepts callback clears) rest nil (chainInduction nil cons rest)

/-- Every handler of a chain, and of the chains inside its handlers, meets a condition on
the handler and on the handlers behind it in its own chain. -/
def Throughout (condition : Handler E W → List (Handler E W) → Prop) :
    List (Handler E W) → Prop
  | [] => True
  | .group p handlers :: rest =>
      condition (group p handlers) rest ∧ Throughout condition handlers ∧
        Throughout condition rest
  | h :: rest => condition h rest ∧ Throughout condition rest

section Throughout

variable {condition : Handler E W → List (Handler E W) → Prop}

@[simp]
theorem throughout_nil : Throughout condition ([] : List (Handler E W)) := by
  simp [Throughout]

theorem throughout_cons {h : Handler E W} {rest : List (Handler E W)} :
    Throughout condition (h :: rest) ↔
      condition h rest ∧ Throughout condition h.inside ∧ Throughout condition rest := by
  cases h <;> simp [Throughout, inside]

/-- A condition may be replaced by one that follows from it. -/
theorem Throughout.mono {weaker : Handler E W → List (Handler E W) → Prop}
    (himp : ∀ h rest, condition h rest → weaker h rest) {handlers : List (Handler E W)}
    (hall : Throughout condition handlers) : Throughout weaker handlers := by
  induction handlers using chainInduction with
  | nil => exact throughout_nil
  | cons h rest ihInside ihRest =>
      obtain ⟨hhere, hinside, hrest⟩ := throughout_cons.mp hall
      exact throughout_cons.mpr ⟨himp h rest hhere, ihInside hinside, ihRest hrest⟩

end Throughout

end RequestRouting.Handler
