import RequestRouting.Proofs.Outermost
import RequestRouting.Proofs.Remounting
import RequestRouting.Proofs.Sending
import RequestRouting.Proofs.Sparing

/-!
# The handlers of a client

A client with a handler of its own has a chain of two: that handler, mounted at the root, and the
handler that sends (`Client.withHandler_eq_ok_iff`). A request starts in front of both, and what the
first of them does decides whether, how often and with which context the second is reached. The
second sends once each time it is called, and it is called for fresh requests only.
-/

namespace RequestRouting

open Handler (Throughout throughout_nil throughout_cons)

variable {E W : Type}

/-! ## Mounting -/

/-- What holds of handlers whatever their predicates are still holds when they are mounted. -/
theorem Handler.throughout_of_mountAll {condition : Handler E W → Prop}
    (hremade : ∀ h p inner, condition h → condition (h.remade p inner)) {outer : Pattern}
    {handlers chain : List (Handler E W)} (hall : Throughout (fun h _ => condition h) handlers)
    (hchain : mountAll outer handlers = .ok chain) :
    Throughout (fun h _ => condition h) chain := by
  induction handlers using chainInduction generalizing chain with
  | nil =>
      cases hchain
      exact throughout_nil
  | cons h rest ihInside ihRest =>
      obtain ⟨hhere, hinside, hrest⟩ := throughout_cons.mp hall
      obtain ⟨_, hmounted, later, hlater, rfl⟩ := mountAll_cons_eq_ok_iff.mp hchain
      obtain ⟨q, _, inner, hinner, rfl⟩ := mount_eq_ok_iff.mp hmounted
      rw [throughout_cons, inside_remade_of_mountAll hinner]
      exact ⟨hremade h _ _ hhere, ihInside hinside hinner, ihRest hrest hlater⟩

theorem Handler.Thrifty.remade {h : Handler E W} (hthrifty : h.Thrifty) (p : Predicate E)
    (inner : List (Handler E W)) : (h.remade p inner).Thrifty := by
  cases h with
  | group => trivial
  | on | after | filter | recover => exact hthrifty

theorem Handler.Spares.remade {V : Type} {part : W → V} {h : Handler E W} (hspares : h.Spares part)
    (p : Predicate E) (inner : List (Handler E W)) : (h.remade p inner).Spares part := by
  cases h <;> exact hspares

/-! ## Two handlers -/

section Pair

variable [Routable E] (monitor : Monitor E W) (h last : Handler E W)

/-- Where a request starts that is dispatched: in front of the handlers at the root. -/
def Dispatcher.insideRoot (event : E) (attributes : Attributes) : Context E :=
  ((startContext event attributes).select Predicate.any 0).enter

/-- A dispatch is a walk through the chain at the root. -/
theorem Dispatcher.process_root (handlers : List (Handler E W)) (event : E)
    (attributes : Attributes) (world : W) :
    ∃ parent length, (⟨.group Predicate.any handlers⟩ : Dispatcher E W).process monitor event
        attributes world =
      (((Blocking.walk monitor handlers [0] 0 (insideRoot event attributes)
          (monitor (.entered [0]) (monitor (.dispatching (Routable.path event)) world))).1.leave
            parent).atEnd length,
        monitor (.left [0]) (Blocking.walk monitor handlers [0] 0 (insideRoot event attributes)
          (monitor (.entered [0]) (monitor (.dispatching (Routable.path event)) world))).2) :=
  ⟨((startContext event attributes).select Predicate.any 0).position, 1, rfl⟩

/-- The first of two handlers is passed over or runs with the second as the rest of its chain. -/
theorem Blocking.walk_pair (address : Address) (ctx : Context E) (world : W)
    (hattached : ctx.position.attached = true) :
    walk monitor [h, last] address 0 ctx world = walk monitor [last] address 1 ctx world ∨
      walk monitor [h, last] address 0 ctx world =
        ((process monitor h (address ++ [0]) (walk monitor [last] address 1)
            (ctx.select h.predicate 0) (monitor (.entered (address ++ [0])) world)).1,
          monitor (.left (address ++ [0]))
            (process monitor h (address ++ [0]) (walk monitor [last] address 1)
              (ctx.select h.predicate 0) (monitor (.entered (address ++ [0])) world)).2) := by
  rw [walk, if_pos hattached]
  split
  · exact .inr rfl
  · exact .inl rfl

end Pair

namespace Http

/-! ## The handler that sends -/

/-- What the handler that sends does with a context. -/
def sendCallback : Callback Call Network := fun ctx =>
  .act id fun network =>
    .doing (fun network' => { network' with
        transport := (network.transport.send ctx.event.request).2 })
      (match (network.transport.send ctx.event.request).1 with
        | .ok response => .done (ctx.send response)
        | .error failure => .fail failure)

theorem sendHandler_eq : sendHandler = .on Predicate.any sendCallback := rfl

/-- Requests that have been answered or have failed do not get to the handler that sends. -/
theorem not_goesInto_sendHandler {ctx : Context Call} {index : Nat}
    (hpast : ctx.handled = true ∨ ctx.exception.isSome = true) :
    ctx.goesInto index sendHandler = false := by
  have hterminal : sendHandler.isTerminal = true := rfl
  unfold Context.goesInto Handler.runsOnFailure
  rw [hterminal]
  rcases hpast with hhandled | hfailed
  · simp [hhandled]
  · have hsome : ctx.exception.isNone = false := by
      rw [← Option.not_isSome, hfailed, Bool.not_true]
    simp [hsome]

/-- They go past it. -/
theorem walk_sendHandler_of_past {monitor : Monitor Call Network} {address : Address}
    {index : Nat} {ctx : Context Call} (network : Network)
    (hpast : ctx.handled = true ∨ ctx.exception.isSome = true) :
    (Blocking.walk monitor [sendHandler] address index ctx network).2 = network := by
  unfold Blocking.walk
  rw [not_goesInto_sendHandler hpast]
  split
  · rfl
  · rfl

/-! ## Clients with a handler -/

namespace Client

/-- The handlers of a client whose own handler has been mounted. -/
def routerFor (mounted : Handler Call Network) : Router Network where
  dispatcher := ⟨.group Predicate.any [mounted, sendHandler]⟩
  settings := { mode := .client }

theorem withHandler_eq_ok_iff {settings : ClientSettings} {handler : Handler Call Network}
    {network : Network} {c : Client} :
    withHandler settings handler network = .ok c ↔
      ∃ mounted, handler.mount Pattern.any = .ok mounted ∧
        c = { settings, router := some (routerFor mounted), network } := by
  have hlast : sendHandler.mount Pattern.any = .ok sendHandler := rfl
  simp only [withHandler, Router.ofHandlers, map_eq_ok_iff, Dispatcher.ofHandlers_eq_ok_iff,
    Handler.mountAll_cons_eq_ok_iff]
  constructor
  · rintro ⟨_, ⟨_, ⟨_, ⟨mounted, hmounted, _, ⟨_, hsend, _, hnil, rfl⟩, rfl⟩, rfl⟩, rfl⟩, rfl⟩
    rw [hlast] at hsend
    cases hsend
    cases hnil
    exact ⟨mounted, hmounted, rfl⟩
  · rintro ⟨mounted, hmounted, rfl⟩
    exact ⟨_, ⟨_, ⟨_, ⟨mounted, hmounted, _, ⟨_, hlast, _, rfl, rfl⟩, rfl⟩, rfl⟩, rfl⟩, rfl⟩

/-- Conditions on callbacks still hold of the handler when it has been mounted. -/
theorem throughout_mounted {condition : Handler Call Network → Prop}
    (hremade : ∀ h p inner, condition h → condition (h.remade p inner))
    {handler mounted : Handler Call Network} (hall : Throughout (fun h _ => condition h) [handler])
    (hmounted : handler.mount Pattern.any = .ok mounted) :
    Throughout (fun h _ => condition h) [mounted] :=
  Handler.throughout_of_mountAll hremade hall <|
    Handler.mountAll_cons_eq_ok_iff.mpr ⟨mounted, hmounted, [], rfl, rfl⟩

theorem exchange_of_router {c : Client} {mounted : Handler Call Network}
    (hrouter : c.router = some (routerFor mounted)) (request : Request) (attributes : Attributes) :
    c.exchange request attributes =
      (((routerFor mounted).settings.resolve ((routerFor mounted).dispatcher.process
          Engine.blocking.reporting { request } attributes c.network).1).mapError .dispatch,
        { c with network := ((routerFor mounted).dispatcher.process
          Engine.blocking.reporting { request } attributes c.network).2 }) := by
  unfold exchange
  rw [hrouter]
  rfl

end Client

end Http

end RequestRouting
