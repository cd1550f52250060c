import RequestRouting.Proofs.ClientChain
import RequestRouting.Proofs.SingleUse

/-!
# A request is sent once

Between a client and its transport stands a tree of handlers, whose callbacks can answer by
themselves, fail before or after they have run the rest of the chain, panic, put failures away and
change the request. A filter that fails late has the rest of its chain run again, from the context
that went into it with the failure recorded. Whatever happens in the tree, a request gets to the
transport at most once (`Client.transport_reached_at_most_once`): only the outermost handler has the
handler that sends behind it, that one is passed over in a second run because of the failure, and
there is no handler in between that could put the failure away.
-/

namespace RequestRouting

open Handler (Throughout throughout_nil throughout_cons)

/-! ## Calls of one handler -/

section Calls

variable {E : Type}

/-- The context of a call of the handler at an address. -/
def Notice.callAt? (address : Address) : Notice E → Option (Context E)
  | called a ctx => if a = address then some ctx else none
  | dispatching _ | entered _ | left _ | returned _ _ | failed _ _ _ => none

/-- The contexts with which the handler at an address is called, oldest first. -/
def callsAt (address : Address) (seen : List (Notice E)) : List (Context E) :=
  seen.filterMap (Notice.callAt? address)

theorem callsAt_append (address : Address) (first second : List (Notice E)) :
    callsAt address (first ++ second) = callsAt address first ++ callsAt address second :=
  List.filterMap_append

theorem Notice.callAt?_of_address? {address other : Address} (hne : other ≠ address)
    {notice : Notice E} (hnotice : notice.address? = some other) :
    notice.callAt? address = none := by
  cases notice with
  | called a ctx =>
      cases hnotice
      exact if_neg hne
  | dispatching | entered | left | returned | failed => rfl

end Calls

namespace Http

/-! ## What is seen of a network -/

/-- A way to look at a network from which its journal cannot be seen. -/
structure Network.View (V : Type) where
  see : Network → V
  /-- What becomes of it when a request is sent. -/
  sent : V → Request → V
  see_sent : ∀ network request,
    see { network with transport := (network.transport.send request).2 } =
      sent (see network) request
  see_change : ∀ (network : Network) (change : Journal → Journal),
    see (HasJournal.change change network) = see network

namespace Network.View

/-- The transport is seen. -/
def transport : View Transport where
  see network := network.transport
  sent t request := (t.send request).2
  see_sent _ _ := rfl
  see_change _ _ := rfl

/-- Nothing is seen. -/
def blank : View Unit where
  see _ := ()
  sent _ _ := ()
  see_sent _ _ := rfl
  see_change _ _ := rfl

variable {V : Type} (view : View V)

theorem see_reporting (notice : Notice Call) (network : Network) :
    view.see (Engine.blocking.reporting notice network) = view.see network := by
  cases notice with
  | dispatching | failed => exact view.see_change network _
  | entered | left | called | returned => rfl

/-- What is seen of an observed network: what is seen of the network, and the calls of the handler
that sends. -/
def of (o : Observed Call Network) : V × List (Context Call) :=
  (view.see o.world, callsAt [0, 1] o.notices)

/-- Nothing is sent, or one request that has neither been answered nor failed before. -/
def AtMostOneSend (before after : V × List (Context Call)) : Prop :=
  after = before ∨ ∃ ctx, ctx.handled = false ∧ ctx.exception = none ∧
    after = (view.sent before.1 ctx.event.request, before.2 ++ [ctx])

theorem atMostOneSend_refl (seen : V × List (Context Call)) : view.AtMostOneSend seen seen :=
  .inl rfl

/-- The monitor that reports and keeps a record. -/
abbrev monitor : Monitor Call (Observed Call Network) := Engine.blocking.reporting.observed

theorem of_monitor (notice : Notice Call) (hnotice : notice.callAt? [0, 1] = none)
    (o : Observed Call Network) : view.of (monitor notice o) = view.of o := by
  unfold of monitor Monitor.observed
  rw [view.see_reporting, callsAt_append]
  simp [callsAt, hnotice]

theorem spares_monitor {address : Address} (hother : ∀ place, address ++ place ≠ [0, 1]) :
    Monitor.Spares view.of monitor address := by
  intro notice place o hnotice
  exact view.of_monitor notice (Notice.callAt?_of_address? (hother place) hnotice) o

/-! ## The handler that sends -/

theorem run_sendCallback (ctx : Context Call)
    (next : Context Call → Observed Call Network → Context Call × Observed Call Network)
    (o : Observed Call Network) :
    (sendCallback ctx).observed.run next o =
      ((o.world.transport.send ctx.event.request).1.map ctx.send, { o with world := { o.world with
        transport := (o.world.transport.send ctx.event.request).2 } }) := by
  cases hanswer : (o.world.transport.send ctx.event.request).1 <;>
    simp [sendCallback, Plan.doing, Plan.observed, Plan.run, Observed.change, hanswer, Except.map]

/-- A call of the handler that sends sends the request of the context. -/
theorem of_invoke (ctx : Context Call)
    (next : Context Call → Observed Call Network → Context Call × Observed Call Network)
    (o : Observed Call Network) :
    (Blocking.invoke monitor [0, 1] (fun ctx => (sendCallback ctx).observed) next ctx o).2.1 =
        ctx.afterCall ((o.world.transport.send ctx.event.request).1.map ctx.send) ∧
      view.of (Blocking.invoke monitor [0, 1] (fun ctx => (sendCallback ctx).observed) next ctx
          o).2.2 =
        (view.sent (view.of o).1 ctx.event.request, (view.of o).2 ++ [ctx]) := by
  have hafter : view.of { monitor (.called [0, 1] ctx) o with world :=
        { o.world with transport := (o.world.transport.send ctx.event.request).2 } } =
      (view.sent (view.of o).1 ctx.event.request, (view.of o).2 ++ [ctx]) := by
    refine Prod.ext (view.see_sent o.world ctx.event.request) ?_
    exact callsAt_append [0, 1] o.notices [.called [0, 1] ctx]
  have hworld : (monitor (.called [0, 1] ctx) o).world = o.world := rfl
  unfold Blocking.invoke
  rw [run_sendCallback, hworld]
  cases (o.world.transport.send ctx.event.request).1 with
  | ok response => exact ⟨rfl, (view.of_monitor _ rfl _).trans hafter⟩
  | error failure => exact ⟨rfl, (view.of_monitor _ rfl _).trans hafter⟩

/-- A request that gets to the handler that sends is sent. -/
theorem of_walk_of_goesInto {ctx : Context Call} (hattached : ctx.position.attached = true)
    (hgoes : ctx.goesInto 1 sendHandler = true) (o : Observed Call Network) :
    (∃ position, (Blocking.walk monitor [sendHandler.observed] [0] 1 ctx o).1 =
        { (ctx.select Predicate.any 1).afterCall
            ((o.world.transport.send ctx.event.request).1.map (ctx.select Predicate.any 1).send)
          with position }) ∧
      view.of (Blocking.walk monitor [sendHandler.observed] [0] 1 ctx o).2 =
        (view.sent (view.of o).1 ctx.event.request,
          (view.of o).2 ++ [ctx.select Predicate.any 1]) := by
  obtain ⟨hctx, hseen⟩ := view.of_invoke (ctx.select Predicate.any 1)
    (Blocking.walk monitor [] [0] 2) (monitor (.entered [0, 1]) o)
  unfold Blocking.walk
  rw [Context.goesInto_observed, if_pos hattached, if_pos hgoes, sendHandler_eq, Handler.observed]
  constructor
  · have hend (ctx : Context Call) (o : Observed Call Network) :
        ∃ position, (Blocking.walk monitor [] [0] 2 ctx o).1 = { ctx with position } := by
      unfold Blocking.walk
      split
      · exact ⟨_, rfl⟩
      · exact ⟨ctx.position, rfl⟩
    obtain ⟨position, hposition⟩ := hend _ _
    exact ⟨position,
      hposition.trans (congrArg (fun ctx : Context Call => { ctx with position }) hctx)⟩
  · refine (view.of_monitor _ rfl _).trans ?_
    rw [← view.of_monitor (.entered [0, 1]) rfl o]
    exact hseen

/-- Whatever gets to the handler that sends is sent at most once. -/
theorem atMostOneSend_walk (ctx : Context Call) (o : Observed Call Network) :
    view.AtMostOneSend (view.of o)
      (view.of (Blocking.walk monitor [sendHandler.observed] [0] 1 ctx o).2) := by
  by_cases hgoes : ctx.position.attached = true ∧ ctx.goesInto 1 sendHandler = true
  · have hfresh : ¬ (ctx.handled = true ∨ ctx.exception.isSome = true) := by
      intro hpast
      rw [not_goesInto_sendHandler hpast] at hgoes
      cases hgoes.2
    refine .inr ⟨ctx.select Predicate.any 1, ?_, ?_,
      (view.of_walk_of_goesInto hgoes.1 hgoes.2 o).2⟩
    · exact Bool.eq_false_iff.mpr fun h => hfresh (.inl h)
    · exact Option.not_isSome_iff_eq_none.mp fun h => hfresh (.inr h)
  · refine .inl ?_
    unfold Blocking.walk
    rw [Context.goesInto_observed]
    split
    · split
      · exact absurd ⟨‹_›, ‹_›⟩ hgoes
      · rfl
    · rfl

theorem of_walk_of_failed {ctx : Context Call} (hfailed : ctx.exception.isSome = true)
    (o : Observed Call Network) :
    view.of (Blocking.walk monitor [sendHandler.observed] [0] 1 ctx o).2 = view.of o := by
  unfold Blocking.walk
  rw [Context.goesInto_observed, not_goesInto_sendHandler (.inr hfailed)]
  split <;> rfl

/-! ## A dispatch -/

/-- A dispatch does what the walk through the two handlers at the root does. -/
theorem exists_walk_eq_process (mounted : Handler Call Network) (event : Call)
    (attributes : Attributes) (o : Observed Call Network) :
    ∃ parent length start, view.of start = view.of o ∧
      ((Client.routerFor mounted).dispatcher.observed.process monitor event attributes o).1 =
        ((Blocking.walk monitor [mounted.observed, sendHandler.observed] [0] 0
          (Dispatcher.insideRoot event attributes) start).1.leave parent).atEnd length ∧
      view.of ((Client.routerFor mounted).dispatcher.observed.process monitor event attributes
          o).2 =
        view.of (Blocking.walk monitor [mounted.observed, sendHandler.observed] [0] 0
          (Dispatcher.insideRoot event attributes) start).2 := by
  obtain ⟨parent, length, hprocess⟩ := Dispatcher.process_root monitor
    [mounted.observed, sendHandler.observed] event attributes o
  have hroot : (Client.routerFor mounted).dispatcher.observed =
      ⟨.group Predicate.any [mounted.observed, sendHandler.observed]⟩ := by
    simp [Client.routerFor, Dispatcher.observed, Handler.observed, Handler.observedAll]
  rw [hroot, hprocess]
  exact ⟨parent, length, _, (view.of_monitor _ rfl _).trans (view.of_monitor _ rfl o), rfl,
    view.of_monitor _ rfl _⟩

/-- Callbacks that keep their hands off what is seen of a network do so when it is observed. -/
theorem spares_observed {mounted : Handler Call Network}
    (hspares : Throughout (fun h _ => h.Spares view.see) [mounted]) :
    mounted.observed.Spares view.of ∧
      Throughout (fun h _ => h.Spares view.of) mounted.observed.inside := by
  have hobserved := hspares.observedAll fun h hh => Handler.Spares.observed (callsAt [0, 1]) hh
  obtain ⟨hhere, hinside, _⟩ := throughout_cons.mp hobserved
  exact ⟨hhere, hinside⟩

/-- A handler that keeps its hands off what is seen has the request sent at most once. -/
theorem atMostOneSend_dispatch {mounted : Handler Call Network}
    (hthrifty : Throughout (fun h _ => h.Thrifty) [mounted])
    (hspares : Throughout (fun h _ => h.Spares view.see) [mounted]) (event : Call)
    (attributes : Attributes) (o : Observed Call Network) :
    view.AtMostOneSend (view.of o)
      (view.of ((Client.routerFor mounted).dispatcher.observed.process monitor event attributes
        o).2) := by
  have hobserved := hthrifty.observedAll fun h hh => Handler.Thrifty.observed hh
  obtain ⟨hthriftyHere, hthriftyInside, _⟩ := throughout_cons.mp hobserved
  obtain ⟨hsparesHere, hsparesInside⟩ := view.spares_observed hspares
  have hmonitor : Monitor.Spares view.of monitor [0, 0] := view.spares_monitor (by simp)
  obtain ⟨_, _, start, hstart, _, hafter⟩ := view.exists_walk_eq_process mounted event attributes o
  rw [hafter, ← hstart]
  rcases Blocking.walk_pair monitor mounted.observed sendHandler.observed [0]
    (Dispatcher.insideRoot event attributes) start rfl with hwalk | hwalk
  · rw [hwalk]
    exact view.atMostOneSend_walk _ start
  · rw [hwalk]
    dsimp only
    rw [view.of_monitor _ rfl, ← view.of_monitor (.entered ([0] ++ [0])) rfl start]
    apply Blocking.part_process_of_thrifty view.atMostOneSend_refl view.atMostOneSend_walk
      (fun ctx o hfailed => view.of_walk_of_failed hfailed o) hmonitor hsparesHere hthriftyHere
    exact Blocking.part_walk hthriftyInside hsparesInside hmonitor 0

end Network.View

/-! ## Clients -/

namespace Client

/-- The contexts with which the handler that sends is called while a request is on its way. -/
def sendings (c : Client) (request : Request) (attributes : Attributes) : List (Context Call) :=
  match c.started, c.router with
  | true, some router =>
      callsAt [0, 1] (router.dispatcher.notices Engine.blocking.reporting
        { request := c.outgoing request } attributes c.network)
  | true, none | false, _ => []

theorem sendings_of_not_started {c : Client} (hstarted : c.started = false) (request : Request)
    (attributes : Attributes) : c.sendings request attributes = [] := by
  unfold sendings
  rw [hstarted]

/-- What is seen of a request on its way, whatever can be seen. -/
theorem atMostOneSend_of_router {V : Type} (view : Network.View V) {c : Client}
    {mounted : Handler Call Network} (hrouter : c.router = some (routerFor mounted))
    (hthrifty : Throughout (fun h _ => h.Thrifty) [mounted])
    (hspares : Throughout (fun h _ => h.Spares view.see) [mounted]) (hstarted : c.started = true)
    (request : Request) (attributes : Attributes) :
    view.AtMostOneSend (view.see c.network, [])
      (view.see (c.exchange (c.outgoing request) attributes).2.network,
        c.sendings request attributes) := by
  have hdispatch := view.atMostOneSend_dispatch hthrifty hspares { request := c.outgoing request }
    attributes ⟨c.network, []⟩
  have hplain := ((routerFor mounted).dispatcher.process_observed Engine.blocking.reporting
    { request := c.outgoing request } attributes ⟨c.network, []⟩).2
  have hsendings : c.sendings request attributes = callsAt [0, 1]
      ((routerFor mounted).dispatcher.observed.process Network.View.monitor
        { request := c.outgoing request } attributes ⟨c.network, []⟩).2.notices := by
    unfold sendings
    rw [hstarted, hrouter]
    rfl
  rw [exchange_of_router hrouter, hsendings, ← hplain]
  exact hdispatch

/-- A request of a client with a handler gets to the handler that sends at most once, and only if it
has neither been answered nor failed, whatever the callbacks in between do with the rest of the
chain, as long as no callback but those of filters runs it, and those run it once at most. Such a
call is the only one that the transport hears of. -/
theorem transport_reached_at_most_once {settings : ClientSettings} {handler : Handler Call Network}
    {network : Network} {c : Client} (hbuilt : withHandler settings handler network = .ok c)
    (hthrifty : Throughout (fun h _ => h.Thrifty) [handler]) (moves : List Move) (request : Request)
    (attributes : Attributes) :
    (∃ router, (c.after moves).router = some router ∧
        ([0, 1], sendHandler) ∈ Handler.all [router.dispatcher.root] [] 0) ∧
      ((c.after moves).started = false →
        (c.after moves).send request attributes = (.error .notStarted, c.after moves) ∧
          (c.after moves).sendings request attributes = []) ∧
      ((c.after moves).sendings request attributes = [] ∨
        ∃ ctx, ctx.handled = false ∧ ctx.exception = none ∧
          (c.after moves).sendings request attributes = [ctx]) ∧
      (∀ (monitor : Monitor Call Network) ctx network,
        ctx.handled = true ∨ ctx.exception.isSome = true →
          (Blocking.walk monitor [sendHandler] [0] 1 ctx network).2 = network) ∧
      (Throughout (fun h _ => h.Spares Network.transport) [handler] →
        ((c.after moves).sendings request attributes = [] ∧
          ((c.after moves).send request attributes).2.network.transport =
            (c.after moves).network.transport) ∨
        ∃ ctx, (c.after moves).sendings request attributes = [ctx] ∧
          ((c.after moves).send request attributes).2.network.transport =
            ((c.after moves).network.transport.send ctx.event.request).2) := by
  obtain ⟨mounted, hmounted, rfl⟩ := withHandler_eq_ok_iff.mp hbuilt
  generalize hd : Client.after _ moves = d
  have hrouter : d.router = some (routerFor mounted) := hd ▸ (sameMake_after _ moves).router
  have hmountedThrifty := throughout_mounted (fun _ _ _ h => h.remade _ _) hthrifty hmounted
  refine ⟨⟨_, hrouter, ?_⟩, ?_, ?_, fun _ _ network => walk_sendHandler_of_past network, ?_⟩
  · simp [routerFor, Handler.listing_cons, Handler.inside]
  · intro hnot
    exact ⟨send_of_not_started hnot request attributes, sendings_of_not_started hnot _ _⟩
  · cases hstarted : d.started with
    | false => exact .inl (sendings_of_not_started hstarted _ _)
    | true =>
        have hblank : Throughout (fun h _ => h.Spares Network.View.blank.see) [mounted] :=
          hmountedThrifty.mono fun _ _ _ callback _ ctx =>
            (callback ctx).spares_of_subsingleton Network.View.blank.see
        rcases atMostOneSend_of_router Network.View.blank hrouter hmountedThrifty hblank hstarted
          request attributes with hnone | ⟨ctx, hhandled, hsound, hone⟩
        · exact .inl (congrArg Prod.snd hnone)
        · exact .inr ⟨ctx, hhandled, hsound, congrArg Prod.snd hone⟩
  · intro hspares
    have hmountedSpares := throughout_mounted (fun _ _ _ h => h.remade _ _) hspares hmounted
    cases hstarted : d.started with
    | false =>
        rw [send_of_not_started hstarted]
        exact .inl ⟨sendings_of_not_started hstarted _ _, rfl⟩
    | true =>
        rw [(send_eq_exchange hstarted request attributes).2]
        rcases atMostOneSend_of_router Network.View.transport hrouter hmountedThrifty hmountedSpares
          hstarted request attributes with hnone | ⟨ctx, _, _, hone⟩
        · exact .inl ⟨congrArg Prod.snd hnone, congrArg Prod.fst hnone⟩
        · exact .inr ⟨ctx, congrArg Prod.snd hone, congrArg Prod.fst hone⟩

/-- A filter around everything that fails once it has run the rest of the chain. -/
def lateFilter : Handler Call Network :=
  .filter Predicate.any fun ctx => .next ctx fun _ => .fail (.text "late")

/-- A client with that filter. -/
def latecomer : Client where
  router := some (routerFor lateFilter)

/-- The request gets to the transport once, although the rest of the chain is run twice. -/
theorem latecomer_sends_once :
    withHandler {} lateFilter {} = .ok latecomer ∧
      Throughout (fun h _ => h.Thrifty) [lateFilter] ∧
      Throughout (fun h _ => h.Spares Network.transport) [lateFilter] ∧
      ((latecomer.after [.start]).send .root .empty).1.isOk = false ∧
      ∃ ctx, (latecomer.after [.start]).sendings .root .empty = [ctx] ∧
        ((latecomer.after [.start]).send .root .empty).2.network.transport =
          ((latecomer.after [.start]).network.transport.send ctx.event.request).2 := by
  have hthrifty : Throughout (fun h _ => h.Thrifty) [lateFilter] := by
    simp [lateFilter, throughout_cons, Handler.inside, Handler.Thrifty, Plan.ProceedsAtMost]
  have hspares : Throughout (fun h _ => h.Spares Network.transport) [lateFilter] := by
    simp [lateFilter, throughout_cons, Handler.inside, Handler.Spares, Handler.callback?,
      Plan.Spares]
  refine ⟨rfl, hthrifty, hspares, by decide +kernel, ?_⟩
  obtain ⟨_, _, _, _, htransport⟩ := transport_reached_at_most_once (c := latecomer) rfl hthrifty
    [.start] .root .empty
  rcases htransport hspares with ⟨_, hsame⟩ | hone
  · have hsent : ((latecomer.after [.start]).send .root .empty).2.network.transport.sent.length =
        1 := by decide +kernel
    rw [hsame] at hsent
    cases hsent
  · exact hone

end Client

end Http

end RequestRouting
