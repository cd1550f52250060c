import RequestRouting.Proofs.Agreement
import RequestRouting.Proofs.SingleUse
import RequestRouting.TextEvent

/-!
# Calls of a route

Where contexts carry their chain, a route is called at most once in a dispatch if filters
proceed safely, callbacks keep places, and neither conditions nor matchers panic: then the
dispatch is the one of the blocking engine, of which this has been proved
(`Dispatcher.countP_notices_le_one`).

None of this can be left out. A route is called twice if a failure is put away between a
filter that fails late and the route, if a callback goes on with a context that another one
has kept, or if a condition panics behind such a filter, although no callback runs the rest
of the chain twice (`Carried.Dispatcher.route_called_twice`).
-/

namespace RequestRouting.Carried

open RequestRouting.Handler (Throughout ProceedsSafely Thrifty FailsEarly FailuresStand
  PassesFailures KeepsFailures throughout_cons)

variable {E W : Type}

/-- A handler of a tree has the same address where contexts do not carry their chain. -/
theorem Handler.mem_all_plainAll {handlers : List (Handler E W)} {chain route : Address}
    {index : Nat} {h : Handler E W} (hmem : (route, h) ∈ listing handlers chain index) :
    ∃ listed : RequestRouting.Handler E W, listed.isTerminal = h.isTerminal ∧
      (route, listed) ∈ RequestRouting.Handler.all (plainAll handlers chain index) chain index := by
  induction handlers using chainInduction generalizing chain index with
  | nil => simp [listing] at hmem
  | cons first rest ihInside ihRest =>
      rw [listing_cons, List.mem_cons, List.mem_append] at hmem
      simp only [plainAll, RequestRouting.Handler.mem_listing_cons, inside_plain, true_and]
      rcases hmem with heq | hinside | hrest
      · cases heq
        exact ⟨_, isTerminal_plain h chain index, .inl (.inl ⟨rfl, rfl⟩)⟩
      · obtain ⟨listed, hterminal, hlisted⟩ := ihInside hinside
        exact ⟨listed, hterminal, .inl (.inr hlisted)⟩
      · obtain ⟨listed, hterminal, hlisted⟩ := ihRest hrest
        exact ⟨listed, hterminal, .inr hlisted⟩

namespace Dispatcher

variable [Routable E] (d : Dispatcher E W) (monitor : Monitor E W) (event : E)
  (attributes : Attributes)

/-- No route is called twice in a dispatch where every filter proceeds safely, callbacks keep
places, and neither conditions nor matchers panic. The dispatch comes to an end, with as many
levels as there are handlers, whatever callbacks fail and whatever the world is like. -/
theorem route_called_at_most_once {route : Address} {listed : Handler E W}
    (hkeeps : Handler.All Handler.KeepsPlaces [d.root])
    (hsteady : Handler.All Handler.Steady [d.root])
    (hsafe : Throughout ProceedsSafely [d.plain.root])
    (hmem : (route, listed) ∈ Handler.listing [d.root] [] 0) (hroute : listed.isTerminal)
    (world : W) :
    ∃ result seen after,
      (∀ depth, Handler.count [d.root] ≤ depth →
        d.process monitor event attributes depth ⟨world, []⟩ = some (.ok result, ⟨after, seen⟩)) ∧
      seen.countP (Notice.isCallOf route) ≤ 1 := by
  obtain ⟨listed, hterminal, hplain⟩ := Handler.mem_all_plainAll hmem
  refine ⟨_, _, _, fun depth hdepth =>
    d.process_eq monitor event attributes hkeeps hsteady hdepth world, ?_⟩
  exact d.plain.countP_notices_le_one monitor event attributes (Notice.oncePerCall_isCallOf route)
    hsafe hplain (hterminal.trans hroute) world

/-- A filter that fails after it has run what is behind it: a group with a handler that
accepts all exceptions and may clear them, and a route. -/
def lateFailure (clears : Bool) : Dispatcher TextEvent Unit :=
  ⟨.group Guard.any
    [.filter Guard.any fun l => .next l fun _ => .fail (.text "late"),
      .group Guard.any [.recover Guard.any (fun _ => .ok true) .done clears],
      .on Guard.any .done]⟩

/-- If the group keeps the failure, the route is called at most once. -/
theorem route_called_at_most_once_after_kept_failure :
    ∃ result seen after,
      (∀ depth, Handler.count [(lateFailure false).root] ≤ depth →
        (lateFailure false).process Monitor.silent ⟨"/"⟩ Attributes.empty depth ⟨(), []⟩ =
          some (.ok result, ⟨after, seen⟩)) ∧
      seen.countP (Notice.isCallOf [0, 2]) ≤ 1 := by
  have hkeeps : Handler.All Handler.KeepsPlaces [(lateFailure false).root] := by
    simp [Handler.All, lateFailure, Handler.listing, Handler.KeepsPlaces, Handler.callback?,
      Plan.KeepsTo]
  have hsteady : Handler.All Handler.Steady [(lateFailure false).root] := by
    simp [Handler.All, lateFailure, Handler.listing, Handler.Steady, Handler.guard, Guard.any,
      Handler.verdict, Except.isOk, Except.toBool]
  have hsafe : Throughout ProceedsSafely [(lateFailure false).plain.root] := by
    simp [plain, lateFailure, Handler.plain, Handler.plainAll, throughout_cons,
      RequestRouting.Handler.inside, ProceedsSafely, Thrifty, FailsEarly, FailuresStand,
      PassesFailures, KeepsFailures, Callback.plain, Plan.plain, RequestRouting.Plan.ProceedsAtMost,
      RequestRouting.Plan.Carries, RequestRouting.Handler.isTerminal]
  have hmem : (([0, 2] : Address), (.on Guard.any .done : Handler TextEvent Unit)) ∈
      Handler.listing [(lateFailure false).root] [] 0 := by
    simp [lateFailure, Handler.listing]
  exact (lateFailure false).route_called_at_most_once Monitor.silent ⟨"/"⟩ Attributes.empty
    hkeeps hsteady hsafe hmem rfl ()

/-- A route that keeps its context in the world and leaves a note where it is, and one that
goes on with the context of the note, if there is one. -/
def keptOnce : Dispatcher TextEvent (List (Located TextEvent)) :=
  ⟨.group Guard.any
    [.on Guard.any fun l => .act (· ++ [l]) fun kept =>
        .done (l.update (·.withAttribute "kept" (.shared (kept.length - 1)))),
      .on Guard.any fun l =>
        match l.ctx.attributes.get? "kept" with
        | some (.shared handle) => .act id fun kept => .done (kept[handle]?.getD l)
        | _ => .done l]⟩

/-- A filter that runs what is behind it: a group with a handler that clears all exceptions, a
route that changes the event, and one with a condition that panics on what it has changed. -/
def latePanic : Dispatcher TextEvent Unit :=
  ⟨.group Guard.any
    [.filter Guard.any fun l => .next l .done,
      .group Guard.any [.recover Guard.any (fun _ => .ok true) .done true],
      .on Guard.any fun l => .done (l.update (·.withEvent ⟨"/b"⟩)),
      .on (Guard.any.withCondition fun event =>
        if event.text = "/b" then .error (.text "condition") else .ok true) .done]⟩

/-- How often the callback at an address is called in a dispatch with so many levels. -/
def callsAt (d : Dispatcher E W) (address : Address) (event : E) (depth : Nat) (world : W) :
    Option Nat :=
  (d.process Monitor.silent event Attributes.empty depth ⟨world, []⟩).map fun ended =>
    ended.2.notices.countP (Notice.isCallOf address)

omit [Routable E] in
/-- A dispatcher for handlers of which only filters run the rest of the chain from their
callback, and do it at most once. -/
def IsThrifty (d : Dispatcher E W) : Prop :=
  ofHandlers d.root.inside = .ok d ∧ Throughout (fun h _ => h.Thrifty) [d.plain.root]

/-- A route is called twice although no callback runs the rest of the chain twice: because a
failure behind a filter is put away, because a context has been kept, or because a condition
panics. -/
theorem route_called_twice :
    ((lateFailure true).IsThrifty ∧ (lateFailure true).callsAt [0, 2] ⟨"/"⟩ 5 () = some 2) ∧
      (keptOnce.IsThrifty ∧ keptOnce.callsAt [0, 1] ⟨"/"⟩ 4 [] = some 2) ∧
      latePanic.IsThrifty ∧ latePanic.callsAt [0, 2] ⟨"/"⟩ 6 () = some 2 := by
  refine ⟨⟨⟨rfl, ?_⟩, by decide +kernel⟩, ⟨⟨rfl, ?_⟩, by decide +kernel⟩, ⟨rfl, ?_⟩,
    by decide +kernel⟩
  · simp [plain, lateFailure, Handler.plain, Handler.plainAll, throughout_cons,
      RequestRouting.Handler.inside, Thrifty, Callback.plain, Plan.plain,
      RequestRouting.Plan.ProceedsAtMost]
  · simp [plain, keptOnce, Handler.plain, Handler.plainAll, throughout_cons,
      RequestRouting.Handler.inside, Thrifty, Callback.plain, Plan.plain,
      RequestRouting.Plan.ProceedsAtMost]
    intro ctx
    split
    · exact fun _ => trivial
    · trivial
  · simp [plain, latePanic, Handler.plain, Handler.plainAll, throughout_cons,
      RequestRouting.Handler.inside, Thrifty, Callback.plain, Plan.plain,
      RequestRouting.Plan.ProceedsAtMost]

end Dispatcher

end RequestRouting.Carried
