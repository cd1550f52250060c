import RequestRouting.Dispatch.Program
import RequestRouting.Proofs.Confined
import RequestRouting.Proofs.Deeper
import RequestRouting.TextEvent

/-!
# The depth of a dispatch

Callbacks that are programs over contexts go on with contexts made from the one that they are
called with, from what comes back to them, or outside any chain. So a dispatch comes to an
end, and what is running at any point of it, as read off its notices (`running`), comes in
the order of the tree: each handler later than the ones that it runs inside of. The number of
handlers bounds how deeply they run inside each other.

A callback that takes a context out of the world is no such program. Two routes of which one
keeps its context and the other one hands that on never come to an end
(`Carried.Dispatcher.handingBack_never_ends`).
-/

namespace RequestRouting.Carried

variable {E W : Type}

/-! ## Programs keep places -/

namespace Program

end Program

namespace Dispatcher

variable [Routable E] (d : Dispatcher E W) (monitor : Monitor E W) (event : E)
  (attributes : Attributes)

omit [Routable E] in
theorem andThen_eq_none {ε α β : Type} {part : Part ε E W α} {onward : α → Part ε E W β}
    {o : Observed E W} (hnone : part o = none) : part.andThen onward o = none := by
  rw [Part.andThen, hnone]

/-- If running a handler needs more levels than there are, so does going on into it. -/
theorem next_eq_none {root : List (Handler E W)} {depth : Nat} {l : Located E}
    (chain : Address) {index : Nat} {h : Handler E W} {o : Observed E W}
    (hchain : l.chain = some chain)
    (hupcoming : upcoming? l.ctx 0 (Handler.chainAt root chain) = .ok (some (index, h)))
    (hnone : Carried.process monitor h (chain ++ [index]) (next monitor root depth)
      (l.select h.guard index) (monitor.observed (.entered (chain ++ [index])) o) = none) :
    next monitor root (depth + 1) l o = none := by
  rw [next, advance_of_upcoming hchain hupcoming]
  simp only [activate, noting, Part.changing, Part.inAnyCase, hnone]

/-- A route that keeps its context in the world, and one that goes on with the context that is
kept there, behind a handler that runs its callback after them. -/
def handingBack : Dispatcher TextEvent (Option (Located TextEvent)) :=
  ⟨.group Guard.any
    [.after Guard.any .done,
      .on Guard.any fun l => .act (fun _ => some l) fun _ => .done l,
      .on Guard.any fun l => .act id fun kept => .done (kept.getD l)]⟩

/-- The context that goes into the first route of `handingBack`, and is kept. -/
def keptContext (event : TextEvent) (attributes : Attributes) : Located TextEvent :=
  ⟨⟨event, Predicate.any, attributes, none, false, ⟨true, 2, false⟩⟩, some [0]⟩

/-- The second route goes on with the context that leads to itself. -/
theorem next_keptContext_eq_none (event : TextEvent) (attributes : Attributes) (depth : Nat)
    (seen : List (Notice TextEvent)) :
    next Monitor.silent [handingBack.root] depth (keptContext event attributes)
      ⟨some (keptContext event attributes), seen⟩ = none := by
  have hupcoming : upcoming? (keptContext event attributes).ctx 0
      (Handler.chainAt [handingBack.root] [0]) =
        .ok (some (2, .on Guard.any fun l => .act id fun kept => .done (kept.getD l))) := rfl
  induction depth generalizing seen with
  | zero =>
      rw [next, advance_of_upcoming rfl hupcoming]
      rfl
  | succ depth ih => exact next_eq_none _ [0] rfl hupcoming (ih _)

/-- A callback that goes on with a context which another one has kept can use up any depth:
the dispatch does not come to an end, and the first handler is not called. -/
theorem handingBack_never_ends (event : TextEvent) (attributes : Attributes) (depth : Nat) :
    handingBack.process Monitor.silent event attributes depth ⟨none, []⟩ = none := by
  cases hprocess : handingBack.process Monitor.silent event attributes depth ⟨none, []⟩ with
  | none => rfl
  | some ended =>
      have hdeeper : handingBack.process Monitor.silent event attributes (depth + 3) ⟨none, []⟩ =
          some ended :=
        handingBack.process_refines _ _ _ (Nat.le_add_right depth 3) _ _ hprocess
      have hlost : handingBack.process Monitor.silent event attributes (depth + 3) ⟨none, []⟩ =
          none := by
        rw [process, noting, Part.changing]
        refine next_eq_none _ [] rfl rfl (andThen_eq_none ?_)
        refine next_eq_none _ [0] rfl rfl (andThen_eq_none ?_)
        exact next_eq_none _ [0] rfl rfl (next_keptContext_eq_none event _ depth _)
      rw [hdeeper] at hlost
      cases hlost

end Dispatcher

end RequestRouting.Carried
