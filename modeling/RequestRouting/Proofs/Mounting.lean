import RequestRouting.Dispatch.Dispatcher
import RequestRouting.Proofs.Chain

/-!
# Putting handlers together

Patterns are declared for a group as it is written, and mounted from the inside out when the
groups are put together: first in the handlers of the group, then again in each group around
it (`Handler.assembleAll`), and at last under the root of a dispatcher. All of that stops at
the first pattern that is refused. If none is, each step says what it has made
(`…_eq_ok_iff`), and none of them touches a callback.
-/

namespace RequestRouting

open Handler (Throughout throughout_nil throughout_cons)

variable {E W : Type}

/-! ## Steps that may be refused -/

section Except

variable {ε α β : Type} {first : Except ε α} {result : β}

theorem bind_eq_ok_iff {onward : α → Except ε β} :
    first.bind onward = .ok result ↔ ∃ middle, first = .ok middle ∧ onward middle = .ok result := by
  cases first with
  | error failure => exact ⟨nofun, nofun⟩
  | ok middle => simp [Except.bind]

theorem map_eq_ok_iff {change : α → β} :
    first.map change = .ok result ↔ ∃ middle, first = .ok middle ∧ change middle = result := by
  cases first with
  | error failure => exact ⟨nofun, nofun⟩
  | ok middle => simp [Except.map]

/-- What is checked of a result holds of it. -/
theorem exists_of_toOption_any {check : α → Bool} (hcheck : first.toOption.any check = true) :
    ∃ middle, first = .ok middle ∧ check middle = true := by
  cases first with
  | error failure => cases hcheck
  | ok middle => exact ⟨middle, rfl, hcheck⟩

end Except

/-! ## Assembly -/

namespace Handler

mutual

/-- The handler with the groups put together, the innermost ones first. -/
def assemble : Handler E W → Except PatternError (Handler E W)
  | group p handlers => (assembleAll handlers).bind (groupOf p)
  | on p callback => .ok (on p callback)
  | after p callback => .ok (after p callback)
  | filter p callback => .ok (filter p callback)
  | recover p accepts callback clears => .ok (recover p accepts callback clears)

/-- The handlers of a chain with their groups put together. -/
def assembleAll : List (Handler E W) → Except PatternError (List (Handler E W))
  | [] => .ok []
  | h :: rest => (assemble h).bind fun h => (assembleAll rest).map (h :: ·)

end

section Built

variable {outer : Pattern} {p : Predicate E} {h built : Handler E W}
  {handlers rest chain : List (Handler E W)}

/-! What mounting and putting together give if nothing is refused. -/

theorem mount_group_eq_ok_iff :
    mount outer (group p handlers) = .ok built ↔
      ∃ q, p.mount outer = .ok q ∧
        ∃ inner, mountAll outer handlers = .ok inner ∧ group q inner = built := by
  simp only [mount, bind, bind_eq_ok_iff, Except.ok.injEq]

theorem mountAll_cons_eq_ok_iff :
    mountAll outer (h :: rest) = .ok chain ↔
      ∃ first, mount outer h = .ok first ∧
        ∃ later, mountAll outer rest = .ok later ∧ first :: later = chain := by
  simp only [mountAll, bind, bind_eq_ok_iff, Except.ok.injEq]

theorem groupOf_eq_ok_iff :
    groupOf p handlers = .ok built ↔
      ∃ inner, mountAll p.pattern handlers = .ok inner ∧ group p inner = built := by
  simp only [groupOf, map_eq_ok_iff]

theorem assemble_group_eq_ok_iff :
    assemble (group p handlers) = .ok built ↔
      ∃ inner, assembleAll handlers = .ok inner ∧ groupOf p inner = .ok built := by
  simp only [assemble, bind_eq_ok_iff]

theorem assembleAll_cons_eq_ok_iff :
    assembleAll (h :: rest) = .ok chain ↔
      ∃ first, assemble h = .ok first ∧
        ∃ later, assembleAll rest = .ok later ∧ first :: later = chain := by
  simp only [assembleAll, bind_eq_ok_iff, map_eq_ok_iff]

/-- Mounting keeps the callback of a handler and mounts the chain inside it. -/
theorem of_mount_eq_ok (hbuilt : mount outer h = .ok built) :
    built.callback? = h.callback? ∧ mountAll outer h.inside = .ok built.inside := by
  cases h with
  | group p handlers =>
      obtain ⟨q, _, inner, hinner, rfl⟩ := mount_group_eq_ok_iff.mp hbuilt
      exact ⟨rfl, hinner⟩
  | on p _ | after p _ | filter p _ | recover p _ _ _ =>
      simp only [mount, bind, bind_eq_ok_iff, Except.ok.injEq] at hbuilt
      obtain ⟨q, _, rfl⟩ := hbuilt
      exact ⟨rfl, rfl⟩

/-- Putting groups together keeps the callback of a handler; what comes inside it has been
put together and mounted. -/
theorem of_assemble_eq_ok (hbuilt : assemble h = .ok built) :
    built.callback? = h.callback? ∧
      ∃ outer inner, assembleAll h.inside = .ok inner ∧
        mountAll outer inner = .ok built.inside := by
  cases h with
  | group p handlers =>
      obtain ⟨assembled, hassembled, hgroup⟩ := assemble_group_eq_ok_iff.mp hbuilt
      obtain ⟨inner, hinner, rfl⟩ := groupOf_eq_ok_iff.mp hgroup
      exact ⟨rfl, p.pattern, assembled, hassembled, hinner⟩
  | on _ _ | after _ _ | filter _ _ | recover _ _ _ _ =>
      cases hbuilt
      exact ⟨rfl, Pattern.any, [], rfl, rfl⟩

/-! What all callbacks of a chain do is what they do when it has been put together. -/

variable {does : Callback E W → Prop}

theorem throughout_mountAll
    (hall : Throughout (fun h _ => ∀ callback ∈ h.callback?, does callback) handlers)
    (hchain : mountAll outer handlers = .ok chain) :
    Throughout (fun h _ => ∀ callback ∈ h.callback?, does callback) chain := by
  induction handlers using chainInduction generalizing chain with
  | nil =>
      cases hchain
      exact throughout_nil
  | cons h rest ihInside ihRest =>
      obtain ⟨hhere, hinside, hrest⟩ := throughout_cons.mp hall
      obtain ⟨first, hfirst, later, hlater, rfl⟩ := mountAll_cons_eq_ok_iff.mp hchain
      obtain ⟨hcallback, hinner⟩ := of_mount_eq_ok hfirst
      exact throughout_cons.mpr
        ⟨by rwa [hcallback], ihInside hinside hinner, ihRest hrest hlater⟩

theorem throughout_assembleAll
    (hall : Throughout (fun h _ => ∀ callback ∈ h.callback?, does callback) handlers)
    (hchain : assembleAll handlers = .ok chain) :
    Throughout (fun h _ => ∀ callback ∈ h.callback?, does callback) chain := by
  induction handlers using chainInduction generalizing chain with
  | nil =>
      cases hchain
      exact throughout_nil
  | cons h rest ihInside ihRest =>
      obtain ⟨hhere, hinside, hrest⟩ := throughout_cons.mp hall
      obtain ⟨first, hfirst, later, hlater, rfl⟩ := assembleAll_cons_eq_ok_iff.mp hchain
      obtain ⟨hcallback, outer, inner, hinner, hmounted⟩ := of_assemble_eq_ok hfirst
      exact throughout_cons.mpr
        ⟨by rwa [hcallback], throughout_mountAll (ihInside hinside hinner) hmounted,
          ihRest hrest hlater⟩

end Built

end Handler

/-! ## Dispatchers -/

namespace Dispatcher

/-- A dispatcher has the handlers that it was made of, mounted at its root. -/
theorem ofHandlers_eq_ok_iff {handlers : List (Handler E W)} {d : Dispatcher E W} :
    ofHandlers handlers = .ok d ↔
      ∃ inner, Handler.mountAll Pattern.any handlers = .ok inner ∧
        ⟨.group Predicate.any inner⟩ = d := by
  simp only [ofHandlers, Handler.groupOf, map_eq_ok_iff, Predicate.any]
  constructor
  · rintro ⟨_, ⟨inner, hinner, rfl⟩, rfl⟩
    exact ⟨inner, hinner, rfl⟩
  · rintro ⟨inner, hinner, rfl⟩
    exact ⟨_, ⟨inner, hinner, rfl⟩, rfl⟩

/-- The dispatcher for a list of handlers whose groups are still to be put together. -/
def assembled (handlers : List (Handler E W)) : Except PatternError (Dispatcher E W) :=
  (Handler.assembleAll handlers).bind ofHandlers

theorem throughout_assembled {does : Callback E W → Prop} {handlers : List (Handler E W)}
    {d : Dispatcher E W}
    (hall : Throughout (fun h _ => ∀ callback ∈ h.callback?, does callback) handlers)
    (hbuilt : assembled handlers = .ok d) :
    Throughout (fun h _ => ∀ callback ∈ h.callback?, does callback) [d.root] := by
  obtain ⟨chain, hchain, hroot⟩ := bind_eq_ok_iff.mp hbuilt
  obtain ⟨inner, hinner, rfl⟩ := ofHandlers_eq_ok_iff.mp hroot
  have hinside := Handler.throughout_mountAll (Handler.throughout_assembleAll hall hchain) hinner
  exact throughout_cons.mpr ⟨nofun, hinside, throughout_nil⟩

end Dispatcher

end RequestRouting
