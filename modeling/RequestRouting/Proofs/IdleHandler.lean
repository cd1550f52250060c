import RequestRouting.Proofs.Plain
import RequestRouting.Proofs.SingleSend

/-!
# Handlers that add nothing

A handler that only looks on, at any depth of a tree, returns the contexts that it gets, or runs the
rest of its chain once and returns the result (`Handler.AddsNothing`). A client with such a handler
does what a client without any handler does (`Client.idle_handler_changes_nothing`): behind the
outermost handler the rest of the chain is run exactly once, from a context that is as fresh as the
first one (`Blocking.exists_process_eq_next`), and what the handler that sends makes of the answer
of the transport is turned into that answer again. Two clients are compared over whole histories,
since the cookies of one answer go into the next request.
-/

namespace RequestRouting

open Handler (Throughout throughout_cons)

variable {E W V U : Type} {part : W → V}

/-! ## Plans -/

namespace Plan

variable {plan : Plan E W} {ctx : Context E}

theorem run_of_returns (next : Context E → W → Context E × W)
    (hreturns : plan.Returns fun result => result = ctx) (world : W) :
    (plan.run next world).1 = .ok ctx := by
  induction plan generalizing world with
  | done result => exact congrArg _ hreturns
  | fail | panic | next | limited => exact hreturns.elim
  | act update resume ih => exact ih _ (hreturns _) _
  | pause how resume ih => exact ih hreturns world
  | abort resume ih => exact ih hreturns world

/-- A plan that wraps the rest of the chain runs it once and returns what comes back. -/
theorem run_of_wraps (next : Context E → W → Context E × W) (hwraps : plan.Wraps ctx)
    (hspares : plan.Spares part) (world : W) :
    ∃ attributes start, part start = part world ∧
      (plan.run next world).1 = .ok (next { ctx with attributes } start).1 ∧
      part (plan.run next world).2 = part (next { ctx with attributes } start).2 := by
  induction plan generalizing world with
  | done | fail | panic => exact hwraps.elim
  | next begin resume =>
      obtain ⟨⟨attributes, rfl⟩, hback⟩ := hwraps
      exact ⟨attributes, world, rfl, run_of_returns next (hback _) _,
        part_run_of_never (hspares _) (hback _).proceedsAtMost _⟩
  | limited limit begin resume =>
      obtain ⟨⟨attributes, rfl⟩, hback⟩ := hwraps
      exact ⟨attributes, world, rfl, run_of_returns next (hback _) _,
        part_run_of_never (hspares _) (hback _).proceedsAtMost _⟩
  | act update resume ih =>
      obtain ⟨attributes, start, hstart, hran⟩ := ih _ (hwraps _) (hspares.2 _) (update world)
      exact ⟨attributes, start, hstart.trans (hspares.1 world), hran⟩
  | pause how resume ih => exact ih hwraps hspares world
  | abort resume ih => exact ih hwraps hspares world

theorem Returns.observed {wanted : Context E → Prop} (hreturns : plan.Returns wanted) :
    plan.observed.Returns wanted := by
  induction plan with
  | done => exact hreturns
  | fail | panic | next | limited => exact hreturns.elim
  | act update resume ih => exact fun o => ih _ (hreturns o.world)
  | pause how resume ih => exact ih hreturns
  | abort resume ih => exact ih hreturns

theorem Wraps.observed (hwraps : plan.Wraps ctx) : plan.observed.Wraps ctx := by
  induction plan with
  | done | fail | panic => exact hwraps.elim
  | next begin resume => exact ⟨hwraps.1, fun result => (hwraps.2 result).observed⟩
  | limited limit begin resume => exact ⟨hwraps.1, fun result => (hwraps.2 result).observed⟩
  | act update resume ih => exact fun o => ih _ (hwraps o.world)
  | pause how resume ih => exact ih hwraps
  | abort resume ih => exact ih hwraps

end Plan

/-! ## Handlers -/

namespace Handler

/-- The callback of the handler returns the context that it gets, or the result of the rest of the
chain if it is a filter. Handlers that take care of exceptions are left out. -/
def AddsNothing : Handler E W → Prop
  | on _ callback | after _ callback => ∀ ctx, (callback ctx).Returns fun result => result = ctx
  | filter _ callback => ∀ ctx, (callback ctx).Wraps ctx
  | recover _ _ _ _ => False
  | group _ _ => True

variable {h : Handler E W}

theorem AddsNothing.remade (hadds : h.AddsNothing) (p : Predicate E) (inner : List (Handler E W)) :
    (h.remade p inner).AddsNothing := by
  cases h with
  | group => trivial
  | on | after | filter | recover => exact hadds

theorem AddsNothing.observed (hadds : h.AddsNothing) : h.observed.AddsNothing := by
  cases h with
  | on | after => exact fun ctx => (hadds ctx).observed
  | filter => exact fun ctx => (hadds ctx).observed
  | recover => exact hadds.elim
  | group => trivial

end Handler

/-! ## Runs -/

namespace Blocking

variable (monitor : Monitor E W) (next : Context E → W → Context E × W) (address : Address)
  {callback : Callback E W} {ctx : Context E}

theorem invoke_of_returns (hreturns : (callback ctx).Returns fun result => result = ctx)
    (world : W) : (invoke monitor address callback next ctx world).2.1 = ctx := by
  have hrun := Plan.run_of_returns next hreturns (monitor (.called address ctx) world)
  unfold invoke
  generalize (callback ctx).run next (monitor (.called address ctx) world) = ran at hrun
  obtain ⟨_, after⟩ := ran
  cases hrun
  rfl

variable {monitor address}

/-- The call of a callback that wraps the rest of the chain is a run of the rest. -/
theorem invoke_of_wraps (hmonitor : monitor.Spares part address) (hwraps : (callback ctx).Wraps ctx)
    (hspares : (callback ctx).Spares part) (world : W) :
    ∃ attributes start, part start = part world ∧
      (invoke monitor address callback next ctx world).1 = true ∧
      (invoke monitor address callback next ctx world).2.1 =
        (next { ctx with attributes } start).1 ∧
      part (invoke monitor address callback next ctx world).2.2 =
        part (next { ctx with attributes } start).2 := by
  obtain ⟨attributes, start, hstart, hctx, hpart⟩ := Plan.run_of_wraps next hwraps hspares
    (monitor (.called address ctx) world)
  refine ⟨attributes, start, hstart.trans (hmonitor.self rfl world), ?_⟩
  unfold invoke
  generalize (callback ctx).run next (monitor (.called address ctx) world) = ran at hctx hpart
  obtain ⟨_, after⟩ := ran
  cases hctx
  exact ⟨rfl, rfl, (hmonitor.self rfl _).trans hpart⟩

variable [Routable E] {h : Handler E W} {event : E} {handled : Bool}

/-- A handler that adds nothing runs the rest of its chain once, from a context and a world like the
ones that it gets, and what comes back is its result. -/
theorem exists_process_eq_next (hmonitor : monitor.Spares part address) (hadds : h.AddsNothing)
    (hspares : h.Spares part)
    (hinner : ∀ ctx world, ctx.Calm event handled →
      (walk monitor h.inside address 0 ctx world).1.Calm event handled ∧
        part (walk monitor h.inside address 0 ctx world).2 = part world)
    (hcalm : ctx.Calm event handled) (world : W) :
    ∃ start before, start.Calm event handled ∧ (handled = false → start.position = ctx.position) ∧
      part before = part world ∧
      (process monitor h address next ctx world).1 = (next start before).1 ∧
      part (process monitor h address next ctx world).2 = part (next start before).2 := by
  cases h with
  | on p callback =>
      have hctx := invoke_of_returns monitor next address
        (hadds ctx) world
      have hpart := part_invoke_of_never next callback hmonitor (hspares callback rfl ctx)
        (hadds ctx).proceedsAtMost world
      unfold process
      dsimp only
      rw [hctx]
      exact ⟨ctx, _, hcalm, fun _ => rfl, hpart, rfl, rfl⟩
  | after p callback =>
      have hctx := invoke_of_returns monitor next address
        (hadds (next ctx world).1) (next ctx world).2
      have hpart := part_invoke_of_never next callback hmonitor
        (hspares callback rfl (next ctx world).1) (hadds _).proceedsAtMost (next ctx world).2
      exact ⟨ctx, world, hcalm, fun _ => rfl, rfl, hctx, hpart⟩
  | filter p callback =>
      obtain ⟨attributes, start, hstart, hok, hctx, hpart⟩ := invoke_of_wraps next
        hmonitor (hadds ctx) (hspares callback rfl ctx) world
      refine ⟨{ ctx with attributes }, start, ⟨hcalm.event, hcalm.exception, hcalm.handled⟩,
        fun _ => rfl, hstart, ?_⟩
      unfold process
      dsimp only
      rw [if_pos hok]
      exact ⟨hctx, hpart⟩
  | recover => exact hadds.elim
  | group p handlers =>
      obtain ⟨hmiddle, hpart⟩ := hinner ctx.enter world hcalm.enter
      refine ⟨_, _, hmiddle.leave ctx.position, fun hhandled => ?_, hpart, rfl, rfl⟩
      have hopen : (walk monitor handlers address 0 ctx.enter world).1.handled = false :=
        hmiddle.handled.trans hhandled
      have hresumed : (ctx.position.resumed ||
          (walk monitor handlers address 0 ctx.enter world).1.handled) = ctx.position.resumed := by
        rw [hopen, Bool.or_false]
      exact congrArg (fun resumed => { ctx.position with resumed }) hresumed

/-- A chain of handlers that add nothing leaves contexts and the world as they are. -/
theorem walk_of_addsNothing {handlers : List (Handler E W)}
    (hadds : Throughout (fun h _ => h.AddsNothing) handlers)
    (hspares : Throughout (fun h _ => h.Spares part) handlers)
    (hmonitor : monitor.Spares part address) (index : Nat) {ctx : Context E}
    (hcalm : ctx.Calm event handled) (world : W) :
    (walk monitor handlers address index ctx world).1.Calm event handled ∧
      part (walk monitor handlers address index ctx world).2 = part world := by
  induction handlers using Handler.chainInduction generalizing address index ctx world with
  | nil =>
      unfold walk
      split
      · exact ⟨⟨hcalm.event, hcalm.exception, hcalm.handled⟩, rfl⟩
      · exact ⟨hcalm, rfl⟩
  | cons h rest ihInside ihRest =>
      obtain ⟨haddsHere, haddsInside, haddsRest⟩ := throughout_cons.mp hadds
      obtain ⟨hhere, hinside, hrest⟩ := throughout_cons.mp hspares
      have hmark := hmonitor.inside index
      unfold walk
      split
      · split
        · obtain ⟨start, before, hstart, _, hbefore, hctx, hpart⟩ := exists_process_eq_next
            (walk monitor rest address (index + 1)) hmark haddsHere hhere
            (fun ctx world hcalm => ihInside haddsInside hinside hmark 0 hcalm world)
            (hcalm.select h.predicate index) (monitor (.entered (address ++ [index])) world)
          obtain ⟨hresult, hafter⟩ := ihRest haddsRest hrest hmonitor (index + 1) hstart before
          dsimp only
          rw [hctx, hmark.self rfl, hpart, hafter, hbefore, hmark.self rfl]
          exact ⟨hresult, rfl⟩
        · exact ihRest haddsRest hrest hmonitor (index + 1) hcalm world
      · exact ⟨hcalm, rfl⟩

end Blocking

namespace Http

/-! ## A dispatch -/

theorem calm_insideRoot (event : Call) (attributes : Attributes) :
    (Dispatcher.insideRoot event attributes).Calm event false ∧
      (Dispatcher.insideRoot event attributes).position.Awaits 0 false :=
  ⟨⟨rfl, rfl, rfl⟩, ⟨rfl, Nat.le_refl 0, rfl⟩⟩

/-- Only the exception and the response matter to what comes of a context. -/
theorem Settings.resolve_congr (settings : Settings) {ctx other : Context Call}
    (hexception : ctx.exception = other.exception)
    (hresponse : ctx.event.response = other.event.response) :
    settings.resolve ctx = settings.resolve other := by
  unfold resolve
  rw [hexception, hresponse]

/-- A client is told the answer of the transport to a request that has not failed before. -/
theorem Settings.resolve_afterCall {settings : Settings} (hmode : settings.mode = .client)
    {ctx : Context Call} (hsound : ctx.exception = none) (answer : Except Failure Response) :
    settings.resolve (ctx.afterCall (answer.map ctx.send)) =
      answer.mapError fun failure => .unresolved failure.exception := by
  cases answer with
  | ok response =>
      have hanswered : (ctx.send response).exception = none := hsound
      refine (settings.resolve_eq_answer hanswered).trans ?_
      unfold answer
      rw [hmode]
      rfl
  | error failure =>
      unfold resolve
      rw [hmode]
      rfl

namespace Network.View

variable {mounted : Handler Call Network}

/-- Behind a handler that adds nothing, the handler that sends is called once, with the request as
it came in. -/
theorem exists_walk_eq_walk_pair (hadds : Throughout (fun h _ => h.AddsNothing) [mounted])
    (hspares : Throughout (fun h _ => h.Spares transport.see) [mounted]) (event : Call)
    (attributes : Attributes) (start : Observed Call Network) :
    ∃ ctx before, ctx.Calm event false ∧ ctx.position.Awaits 1 false ∧
      transport.of before = transport.of start ∧
      (Blocking.walk monitor [mounted.observed, sendHandler.observed] [0] 0
          (Dispatcher.insideRoot event attributes) start).1 =
        (Blocking.walk monitor [sendHandler.observed] [0] 1 ctx before).1 ∧
      transport.of (Blocking.walk monitor [mounted.observed, sendHandler.observed] [0] 0
          (Dispatcher.insideRoot event attributes) start).2 =
        transport.of (Blocking.walk monitor [sendHandler.observed] [0] 1 ctx before).2 := by
  obtain ⟨hcalm, hawaits⟩ := calm_insideRoot event attributes
  rcases Blocking.walk_pair monitor mounted.observed sendHandler.observed [0]
    (Dispatcher.insideRoot event attributes) start rfl with hwalk | hwalk
  · rw [hwalk]
    exact ⟨_, start, hcalm, hawaits.skip, rfl, rfl, rfl⟩
  · have hobserved := hadds.observedAll fun h hh => Handler.AddsNothing.observed hh
    obtain ⟨haddsHere, haddsInside, _⟩ := throughout_cons.mp hobserved
    obtain ⟨hsparesHere, hsparesInside⟩ := transport.spares_observed hspares
    have hmonitor : Monitor.Spares transport.of monitor [0, 0] :=
      transport.spares_monitor (by simp)
    obtain ⟨ctx, before, hctx, hposition, hbefore, hresult, hafter⟩ :=
      Blocking.exists_process_eq_next (Blocking.walk monitor [sendHandler.observed] [0] 1)
        hmonitor haddsHere hsparesHere
        (fun ctx world hcalm =>
          Blocking.walk_of_addsNothing haddsInside hsparesInside hmonitor 0 hcalm world)
        (hcalm.select mounted.observed.predicate 0) (monitor (.entered [0, 0]) start)
    refine ⟨ctx, before, hctx, ?_, hbefore.trans (transport.of_monitor _ rfl start), ?_, ?_⟩
    · rw [hposition rfl]
      exact hawaits.select _
    · rw [hwalk]
      exact hresult
    · rw [hwalk]
      exact (transport.of_monitor _ rfl _).trans hafter

/-- A request that goes through a handler that adds nothing is sent once, as it is, and the answer
comes back as it is. -/
theorem dispatch_of_addsNothing (hadds : Throughout (fun h _ => h.AddsNothing) [mounted])
    (hspares : Throughout (fun h _ => h.Spares transport.see) [mounted]) (event : Call)
    (attributes : Attributes) (o : Observed Call Network) :
    ∃ ctx, ctx.event = event ∧
      (Client.routerFor mounted).settings.resolve
          ((Client.routerFor mounted).dispatcher.observed.process monitor event attributes o).1 =
        (o.world.transport.send event.request).1.mapError
          (fun failure => .unresolved failure.exception) ∧
      transport.of ((Client.routerFor mounted).dispatcher.observed.process monitor event attributes
          o).2 =
        ((o.world.transport.send event.request).2, callsAt [0, 1] o.notices ++ [ctx]) := by
  obtain ⟨parent, length, start, hstart, hresult, hafter⟩ :=
    transport.exists_walk_eq_process mounted event attributes o
  obtain ⟨ctx, before, hcalm, hawaits, hbefore, hlast, hseen⟩ :=
    exists_walk_eq_walk_pair hadds hspares event attributes start
  have hgoes : ctx.goesInto 1 sendHandler = true := hcalm.goesInto hawaits sendHandler
  obtain ⟨⟨position, hsent⟩, hof⟩ := transport.of_walk_of_goesInto hawaits.attached hgoes before
  have hsame : transport.of before = transport.of o := hbefore.trans hstart
  have htransport : before.world.transport = o.world.transport := congrArg Prod.fst hsame
  refine ⟨ctx.select Predicate.any 1, hcalm.event, ?_, ?_⟩
  · have hsound : (ctx.select Predicate.any 1).exception = none := hcalm.exception
    rw [hresult, hlast, hsent, hcalm.event, htransport]
    refine (Settings.resolve_congr _ ?_ ?_).trans (Settings.resolve_afterCall rfl hsound _)
    · rfl
    · rfl
  · rw [hafter, hseen, hof, hsame, hcalm.event]
    rfl

end Network.View

/-! ## Two clients -/

namespace Client

/-- The client without a handler. -/
def direct (settings : ClientSettings) (network : Network) : Client := { settings, network }

/-- What an error is called that comes up through handlers. -/
def throughHandlers : ClientError → ClientError
  | .transport cause => .dispatch (.unresolved cause.exception)
  | .dispatch error => .dispatch error
  | .notStarted => .notStarted
  | .alreadyStarted => .alreadyStarted

theorem exchange_of_direct {c : Client} (hrouter : c.router = none) (request : Request)
    (attributes : Attributes) :
    (c.exchange request attributes).1 =
        (c.network.transport.send request).1.mapError .transport ∧
      (c.exchange request attributes).2.network.transport =
        (c.network.transport.send request).2 := by
  unfold exchange
  rw [hrouter]
  exact ⟨rfl, rfl⟩

section Exchange

variable {c : Client} {mounted : Handler Call Network}
  (hrouter : c.router = some (routerFor mounted))
  (hadds : Throughout (fun h _ => h.AddsNothing) [mounted])
  (hspares : Throughout (fun h _ => h.Spares Network.transport) [mounted])

include hrouter hadds hspares

theorem exchange_of_addsNothing (request : Request) (attributes : Attributes) :
    (c.exchange request attributes).1 =
        ((c.network.transport.send request).1.mapError .transport).mapError throughHandlers ∧
      (c.exchange request attributes).2.network.transport =
        (c.network.transport.send request).2 := by
  obtain ⟨ctx, _, hanswer, hseen⟩ := Network.View.dispatch_of_addsNothing hadds hspares
    { request } attributes ⟨c.network, []⟩
  obtain ⟨hresult, hworld⟩ := (routerFor mounted).dispatcher.process_observed
    Engine.blocking.reporting { request } attributes ⟨c.network, []⟩
  rw [exchange_of_router hrouter, ← hresult, ← hworld]
  refine ⟨?_, congrArg Prod.fst hseen⟩
  dsimp only
  rw [hanswer]
  cases (c.network.transport.send request).1 <;> rfl

theorem sendings_of_addsNothing (hstarted : c.started = true) (request : Request)
    (attributes : Attributes) :
    ∃ ctx, ctx.event = { request := c.outgoing request } ∧
      c.sendings request attributes = [ctx] := by
  obtain ⟨ctx, hevent, _, hseen⟩ := Network.View.dispatch_of_addsNothing hadds hspares
    { request := c.outgoing request } attributes ⟨c.network, []⟩
  refine ⟨ctx, hevent, ?_⟩
  unfold sendings
  rw [hstarted, hrouter]
  exact congrArg Prod.snd hseen

end Exchange

/-- A change from outside does to the transport what it does whatever is in the journal. -/
def Move.IgnoresJournal : Move → Prop
  | .network change => ∀ network other : Network, network.transport = other.transport →
      (change network).transport = (change other).transport
  | .start | .shutDown | .setCookies _ | .send _ _ => True

/-- Two clients with the same settings and cookies and the same transport. -/
structure Alike (c d : Client) : Prop where
  settings : c.settings = d.settings
  jar : c.jar = d.jar
  transport : c.network.transport = d.network.transport

namespace Alike

variable {c d : Client} (halike : Alike c d)

include halike

theorem started : c.started = d.started := congrArg Transport.started halike.transport

theorem outgoing (request : Request) : c.outgoing request = d.outgoing request := by
  unfold Client.outgoing attachCookies
  rw [halike.settings, halike.jar]

variable {mounted : Handler Call Network} (hdirect : d.router = none)
  (hrouter : c.router = some (routerFor mounted))
  (hadds : Throughout (fun h _ => h.AddsNothing) [mounted])
  (hspares : Throughout (fun h _ => h.Spares Network.transport) [mounted])

include hdirect hrouter hadds hspares

/-- A request has the same answer and leaves the same behind. -/
theorem send (request : Request) (attributes : Attributes) :
    (c.send request attributes).1 = (d.send request attributes).1.mapError throughHandlers ∧
      Alike (c.send request attributes).2 (d.send request attributes).2 := by
  have hmakes (e : Client) : SameMake e (e.send request attributes).2 :=
    e.sameMake_perform (.send request attributes)
  have hanswers : (c.send request attributes).1 =
      (d.send request attributes).1.mapError throughHandlers ∧
      (c.send request attributes).2.network.transport =
        (d.send request attributes).2.network.transport := by
    cases hstarted : d.started with
    | false =>
        rw [send_of_not_started hstarted, send_of_not_started (halike.started.trans hstarted)]
        exact ⟨rfl, halike.transport⟩
    | true =>
        obtain ⟨hanswer, htransport⟩ := send_eq_exchange hstarted request attributes
        obtain ⟨hanswer', htransport'⟩ :=
          send_eq_exchange (halike.started.trans hstarted) request attributes
        obtain ⟨hplain, hplainAfter⟩ := exchange_of_direct hdirect (d.outgoing request) attributes
        obtain ⟨hthrough, hafter⟩ :=
          exchange_of_addsNothing hrouter hadds hspares (c.outgoing request) attributes
        rw [hanswer, hanswer', htransport, htransport', hplain, hplainAfter, hthrough, hafter,
          halike.outgoing, halike.transport]
        exact ⟨rfl, rfl⟩
  refine ⟨hanswers.1, ?_, ?_, hanswers.2⟩
  · exact (hmakes c).settings.trans (halike.settings.trans (hmakes d).settings.symm)
  · rw [jar_send, jar_send, hanswers.1, halike.jar]
    cases (d.send request attributes).1 <;> rfl

/-- Every call keeps the clients alike. -/
theorem perform {move : Move} (hmove : move.IgnoresJournal) :
    Alike (c.perform move).2 (d.perform move).2 := by
  cases move with
  | start =>
      unfold Client.perform Client.start
      rw [halike.started, halike.transport]
      dsimp only
      split
      · exact halike
      · split
        · exact halike
        · exact ⟨halike.settings, halike.jar, rfl⟩
  | shutDown =>
      unfold Client.perform Client.shutDown
      rw [halike.started, halike.transport]
      dsimp only
      split
      · split
        · exact halike
        · exact ⟨halike.settings, halike.jar, rfl⟩
      · exact halike
  | setCookies cookies => exact ⟨halike.settings, rfl, halike.transport⟩
  | send request attributes =>
      exact (halike.send hdirect hrouter hadds hspares request attributes).2
  | network change => exact ⟨halike.settings, halike.jar, hmove _ _ halike.transport⟩

/-- So does every history. -/
theorem after {moves : List Move} (hmoves : ∀ move ∈ moves, move.IgnoresJournal) :
    Alike (c.after moves) (d.after moves) := by
  induction moves generalizing c d with
  | nil => exact halike
  | cons move moves ih =>
      have hnext := halike.perform hdirect hrouter hadds hspares (hmoves move List.mem_cons_self)
      apply ih hnext
      · rw [(d.sameMake_perform move).router, hdirect]
      · rw [(c.sameMake_perform move).router, hrouter]
      · exact fun later hlater => hmoves later (.tail _ hlater)

end Alike

/-- A client whose handler adds nothing, at any depth and under any predicates, does what the client
without a handler does, throughout any history. Each request that is sent gets to the transport
exactly once and as the other client sends it; the response is the same; a failure of the transport
comes up as an exception that nothing has resolved; and the cookies are the same. -/
theorem idle_handler_changes_nothing {settings : ClientSettings} {handler : Handler Call Network}
    {network : Network} {c : Client} (hbuilt : withHandler settings handler network = .ok c)
    (hadds : Throughout (fun h _ => h.AddsNothing) [handler])
    (hspares : Throughout (fun h _ => h.Spares Network.transport) [handler]) {moves : List Move}
    (hmoves : ∀ move ∈ moves, move.IgnoresJournal) (request : Request) (attributes : Attributes) :
    Alike (c.after moves) ((direct settings network).after moves) ∧
      ((c.after moves).send request attributes).1 =
        (((direct settings network).after moves).send request attributes).1.mapError
          throughHandlers ∧
      Alike ((c.after moves).send request attributes).2
        (((direct settings network).after moves).send request attributes).2 ∧
      ((c.after moves).started = false →
        ((c.after moves).send request attributes).2 = c.after moves ∧
          (c.after moves).sendings request attributes = []) ∧
      ((c.after moves).started = true →
        (∃ ctx, (c.after moves).sendings request attributes = [ctx] ∧
          ctx.event.request = ((direct settings network).after moves).outgoing request) ∧
        ((c.after moves).send request attributes).2.network.transport =
          ((c.after moves).network.transport.send
            (((direct settings network).after moves).outgoing request)).2) := by
  obtain ⟨mounted, hmounted, rfl⟩ := withHandler_eq_ok_iff.mp hbuilt
  have haddsMounted := throughout_mounted (fun _ _ _ h => h.remade _ _) hadds hmounted
  have hsparesMounted := throughout_mounted (fun _ _ _ h => h.remade _ _) hspares hmounted
  have hstart : Alike { settings, router := some (routerFor mounted), network }
      (direct settings network) := ⟨rfl, rfl, rfl⟩
  have halike := hstart.after rfl rfl haddsMounted hsparesMounted hmoves
  have hdirect := ((direct settings network).sameMake_after moves).router
  generalize hc : Client.after { settings, router := some (routerFor mounted), network } moves = e
    at halike ⊢
  have hrouter : e.router = some (routerFor mounted) := hc ▸ (sameMake_after _ moves).router
  obtain ⟨hanswer, hafter⟩ :=
    halike.send hdirect hrouter haddsMounted hsparesMounted request attributes
  refine ⟨halike, hanswer, hafter, ?_, ?_⟩
  · intro hnot
    rw [send_of_not_started hnot]
    exact ⟨rfl, sendings_of_not_started hnot request attributes⟩
  · intro hstarted
    obtain ⟨ctx, hevent, hone⟩ :=
      sendings_of_addsNothing hrouter haddsMounted hsparesMounted hstarted request attributes
    rw [← halike.outgoing]
    refine ⟨⟨ctx, hone, congrArg Call.request hevent⟩, ?_⟩
    rw [(send_eq_exchange hstarted request attributes).2]
    exact (exchange_of_addsNothing hrouter haddsMounted hsparesMounted _ attributes).2

/-- Handlers that look on: a filter, a route that writes to the log, and a group with another one
and an `after` handler. -/
def onlookers : Handler Call Network :=
  .group Predicate.any
    [.filter Predicate.any Plan.proceed,
      .on Predicate.any fun ctx => .recording (·.write "seen") (.done ctx),
      .group Predicate.any [.after Predicate.any Plan.unchanged, .on Predicate.any Plan.unchanged]]

/-- A member at work: two answers, and a failure in between. -/
def session : List Move :=
  [.start, .send (.ofTarget .get "/login") .empty, .send (.ofTarget .get "/profile") .empty,
    .setCookies [⟨"lang", "en"⟩], .send (.ofTarget .get "/login") .empty]

/-- The cookies of a watched session are those of the session, and the next request is sent once. -/
theorem onlookers_change_nothing :
    ∃ c, withHandler {} onlookers visitor.network = .ok c ∧
      Throughout (fun h _ => h.AddsNothing) [onlookers] ∧
      Throughout (fun h _ => h.Spares Network.transport) [onlookers] ∧
      (∀ move ∈ session, move.IgnoresJournal) ∧
      (c.after session).jar = [⟨"lang", "en"⟩, ⟨"session", "abc"⟩, ⟨"theme", "dark"⟩] ∧
      ((c.after session).sendings (.ofTarget .get "/logout") .empty).length = 1 := by
  have hadds : Throughout (fun h _ => h.AddsNothing) [onlookers] := by
    have hproceed (ctx : Context Call) : (Plan.proceed ctx : Plan Call Network).Wraps ctx :=
      ⟨⟨ctx.attributes, rfl⟩, fun _ => rfl⟩
    simp [onlookers, throughout_cons, Handler.inside, Handler.AddsNothing, Plan.Returns, hproceed,
      Plan.unchanged, Plan.recording, Plan.doing]
  have hspares : Throughout (fun h _ => h.Spares Network.transport) [onlookers] := by
    simp [onlookers, throughout_cons, Handler.inside, Handler.Spares, Handler.callback?,
      Plan.Spares, Plan.proceed, Plan.unchanged, Plan.recording, Plan.doing, HasJournal.change]
  have hmoves : ∀ move ∈ session, move.IgnoresJournal := by
    simp [session, Move.IgnoresJournal]
  have hbuilt : withHandler {} onlookers visitor.network = .ok _ := rfl
  obtain ⟨halike, _, _, _, hsends⟩ := idle_handler_changes_nothing hbuilt hadds hspares hmoves
    (.ofTarget .get "/logout") .empty
  have hjar : ((direct {} visitor.network).after session).jar =
      [⟨"lang", "en"⟩, ⟨"session", "abc"⟩, ⟨"theme", "dark"⟩] := by decide +kernel
  have hstarted : ((direct {} visitor.network).after session).started = true := by decide +kernel
  obtain ⟨⟨ctx, hone, _⟩, _⟩ := hsends (halike.started.trans hstarted)
  exact ⟨_, hbuilt, hadds, hspares, hmoves, halike.jar.trans hjar, congrArg List.length hone⟩

end Client

end Http

end RequestRouting
