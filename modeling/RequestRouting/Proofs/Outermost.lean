import RequestRouting.Http.Router
import RequestRouting.Proofs.Depth
import RequestRouting.Proofs.Mounting
import RequestRouting.Proofs.RouteCalls

/-!
# The outermost handler

The first handler of a dispatcher, under the guard that accepts everything, is selected in
every dispatch, before anything else happens, and runs once. If it wraps the rest of the tree
and callbacks keep places, it has the last word, whatever happens inside: an `after` handler
makes the last call of the dispatch, and a handler that takes care of all exceptions leaves
none for the router to report.

A panic of a condition is no exception. If it comes out of the rest of the chain, the callback
of an `after` handler is not called. Neither is it if the dispatch does not come to an end.
-/

namespace RequestRouting

variable {E W : Type}

/-- The callback at an address is called exactly once, and no callback is called later. -/
def CalledLast (a : Address) (seen : List (Notice E)) : Prop :=
  ∃ earlier ctx, callsOf seen = earlier ++ [(a, ctx)] ∧ ∀ call ∈ earlier, call.1 ≠ a

theorem SilentAbout.not_called {a : Address} {seen : List (Notice E)}
    (hsilent : SilentAbout a seen) : ∀ call ∈ callsOf seen, call.1 ≠ a := by
  intro call hcall heq
  obtain ⟨notice, hnotice, hcalled⟩ := List.mem_filterMap.mp hcall
  apply hsilent notice hnotice
  cases notice with
  | called address ctx =>
      cases hcalled
      exact congrArg some heq
  | dispatching | entered | left | returned | failed => cases hcalled

namespace Carried

/-! ## Callbacks that leave the rest of the chain alone -/

/-- The plan does not go on with any context. -/
def Plan.NeverProceeds : Plan E W → Prop
  | done _ | fail _ | panic _ => True
  | next _ _ => False
  | act _ resume => ∀ world, (resume world).NeverProceeds

/-- A plan that does not go on with any context gives no notices. -/
theorem Plan.run_of_never (next : Located E → Part PanicPayload E W (Located E)) {plan : Plan E W}
    (hnever : plan.NeverProceeds) (o : Observed E W) :
    ∃ outcome world, plan.run next o = some (outcome, ⟨world, o.notices⟩) := by
  induction plan generalizing o with
  | done l => exact ⟨.ok l, o.world, rfl⟩
  | fail failure => exact ⟨.error failure, o.world, rfl⟩
  | panic payload => exact ⟨.error payload.failure, o.world, rfl⟩
  | next l resume ih => exact hnever.elim
  | act update resume ih => exact ih _ (hnever _) (o.change update)

variable (monitor : Monitor E W)

/-- The call of a callback that does not go on with any context is the only call there is. -/
theorem invoke_of_never (address : Address) {callback : Callback E W}
    (next : Located E → Part PanicPayload E W (Located E)) {l : Located E}
    (hnever : (callback l).NeverProceeds) (o : Observed E W) :
    ∃ call seen world,
      invoke monitor address callback next l o = some (.ok call, ⟨world, o.notices ++ seen⟩) ∧
        callsOf seen = [(address, l.ctx)] := by
  obtain ⟨outcome, world, hrun⟩ :=
    Plan.run_of_never next hnever (monitor.observed (.called address l.ctx) o)
  cases outcome with
  | ok result =>
      refine ⟨(true, result), [.called address l.ctx, .returned address result.ctx],
        monitor (.returned address result.ctx) world, ?_, rfl⟩
      simp only [invoke, noting, Part.changing, Part.inAnyCase, hrun]
      simp [Part.done, Monitor.observed]
  | error failure =>
      refine ⟨(false, l.withException failure),
        [.called address l.ctx, .failed address l.ctx failure],
        monitor (.failed address l.ctx failure) world, ?_, rfl⟩
      simp only [invoke, noting, Part.changing, Part.inAnyCase, hrun]
      simp [Part.done, Monitor.observed]

/-! ## The first handler of a dispatcher -/

namespace Dispatcher

/-- A dispatcher keeps its first handler, mounted, in front of all others. -/
theorem root_of_ofHandlers_cons {h : Handler E W} {rest : List (Handler E W)}
    {d : Dispatcher E W} (hbuilt : ofHandlers (h :: rest) = .ok d) :
    ∃ first mounted, h.mount Pattern.any = .ok first ∧
      d.root = .group Guard.any (first :: mounted) := by
  obtain ⟨root, hroot, rfl⟩ := map_eq_ok_iff.mp hbuilt
  obtain ⟨inner, hinner, rfl⟩ := map_eq_ok_iff.mp hroot
  rw [Handler.mountAll] at hinner
  obtain ⟨first, hfirst, hlater⟩ := bind_eq_ok_iff.mp hinner
  obtain ⟨mounted, _, hcons⟩ := bind_eq_ok_iff.mp hlater
  cases hcons
  exact ⟨first, mounted, hfirst, rfl⟩

/-- The guard that accepts everything stays as it is at the top of a dispatcher. -/
theorem mount_any_any : (Guard.any : Guard E).mount Pattern.any = .ok Guard.any := rfl

variable [Routable E] {d : Dispatcher E W} {first : Handler E W} {mounted : List (Handler E W)}
  (hroot : d.root = .group Guard.any (first :: mounted)) (event : E) (attributes : Attributes)

/-- The context that goes into the root of a dispatcher. -/
def rootContext : Located E := (startContext event attributes).select Guard.any 0

/-- The context that goes into the first handler of a dispatcher. -/
def openingContext : Located E := ((rootContext event attributes).enter [0]).select Guard.any 0

/-- The context at the end of a dispatch, after the handlers in the root. -/
def closingContext (inner : Located E) : Located E :=
  (inner.leave (rootContext event attributes)).atEnd 1

include hroot

/-- A dispatch is what the first handler does, if that accepts everything. -/
theorem process_of_first (monitor : Monitor E W) (hguard : first.guard = Guard.any) (depth : Nat) :
    d.process monitor event attributes (depth + 2) =
      noting monitor (.dispatching (Routable.path event))
        (activate monitor [0]
          ((activate monitor [0, 0] (Carried.process monitor first [0, 0]
              (next monitor [d.root] depth) (openingContext event attributes))).andThen fun inner =>
            .done (closingContext event attributes inner))) := by
  have hrootAhead : upcoming? (startContext event attributes).ctx 0
      (Handler.chainAt [d.root] []) = .ok (some (0, d.root)) := by
    rw [hroot]
    rfl
  have hfirstAhead : upcoming? ((rootContext event attributes).enter [0]).ctx 0
      (Handler.chainAt [d.root] [0]) = .ok (some (0, first)) := by
    have hmay : mayGoInto ((rootContext event attributes).enter [0]).ctx 0 first = true := rfl
    have hchain : Handler.chainAt [d.root] [0] = first :: mounted := by
      rw [hroot]
      rfl
    rw [hchain, upcoming?, if_pos hmay, hguard]
    rfl
  have hnoneAhead (inner : Located E) : upcoming? (inner.leave (rootContext event attributes)).ctx
      0 (Handler.chainAt [d.root] []) = .ok none := rfl
  have hgroup : Carried.process monitor d.root [0] (next monitor [d.root] (depth + 1))
      (rootContext event attributes) =
        (activate monitor [0, 0] (Carried.process monitor first [0, 0]
          (next monitor [d.root] depth) (openingContext event attributes))).andThen fun inner =>
            .done (closingContext event attributes inner) := by
    have hlater (inner : Located E) :
        next monitor [d.root] (depth + 1) (inner.leave (rootContext event attributes)) =
          .done (closingContext event attributes inner) := advance_of_end rfl (hnoneAhead inner)
    rw [hroot, Carried.process, ← hroot]
    simp only [hlater]
    rw [next, advance_of_upcoming rfl hfirstAhead, hguard]
    rfl
  rw [← hgroup, process, next, advance_of_upcoming rfl hrootAhead, hroot]
  rfl

omit [Routable E] in
/-- The handlers of a dispatcher are the root, the first one, and those inside and behind it. -/
theorem count_of_first : Handler.count [d.root] =
    (Handler.order first.inside [0, 0] 0).length + (Handler.order mounted [0] 1).length + 2 := by
  rw [Handler.count, ← List.length_map Prod.fst, ← Handler.order, hroot, Handler.order_cons,
    Handler.order_nil, List.append_nil, Handler.inside, Handler.order_cons]
  simp

/-- The handlers behind the first one come to an end and give no notices about it. -/
theorem next_ends_of_first (monitor : Monitor E W)
    (hkeeps : Handler.All Handler.KeepsPlaces [d.root]) {depth : Nat}
    (hdepth : Handler.count [d.root] ≤ depth + 2) {l : Located E} (hl : l.place.From [0] 1) :
    (next monitor [d.root] depth l).Ends (SilentAbout [0, 0]) (·.place.From [0] 1)
      (Handler.All Handler.Steady [d.root]) := by
  have hchain : Handler.chainAt [d.root] [0] = first :: mounted := by
    rw [hroot]
    rfl
  have hcount := count_of_first hroot
  have hends := next_ends monitor hkeeps depth [0] 1 (by simp [hchain])
    (by rw [hchain, List.drop_one, List.tail_cons]; omega) hl
  rw [hchain, List.drop_one, List.tail_cons] at hends
  refine hends.mono (fun seen hnests notice hnotice haddress => ?_) fun _ => id
  have hmem := hnests.mem_about notice hnotice _ haddress
  exact Address.not_within_later_self (Handler.within_of_mem_order hmem)

/-- What the first handler does in all cases, it does within a dispatch. -/
theorem exists_process_of_first (monitor : Monitor E W) (hguard : first.guard = Guard.any)
    {P : Except PanicPayload (Located E) → List (Notice E) → Prop}
    (hfirst : ∀ depth, Handler.count [d.root] ≤ depth + 2 → ∀ o, ∃ outcome between world,
      Carried.process monitor first [0, 0] (next monitor [d.root] depth)
          (openingContext event attributes) o =
        some (outcome, ⟨world, o.notices ++ between⟩) ∧ P outcome between) (world : W) :
    ∃ outcome between after, P outcome between ∧
      ∀ depth, Handler.count [d.root] ≤ depth →
        d.process monitor event attributes depth ⟨world, []⟩ =
          some (outcome.map (closingContext event attributes),
            ⟨after, [.dispatching (Routable.path event), .entered [0], .entered [0, 0]] ++ between ++
              [.left [0, 0], .left [0]]⟩) := by
  have hcount := count_of_first hroot
  generalize (Handler.order first.inside [0, 0] 0).length + (Handler.order mounted [0] 1).length =
    least at hcount
  obtain ⟨outcome, between, after, hprocess, hP⟩ := hfirst least (Nat.le_of_eq hcount)
    ⟨monitor (.entered [0, 0]) (monitor (.entered [0])
      (monitor (.dispatching (Routable.path event)) world)),
      [.dispatching (Routable.path event), .entered [0], .entered [0, 0]]⟩
  refine ⟨outcome, between, monitor (.left [0]) (monitor (.left [0, 0]) after), hP,
    fun depth hdepth => d.process_refines monitor event attributes hdepth _ _ ?_⟩
  rw [hcount, process_of_first hroot event attributes monitor hguard]
  have hstart : monitor.observed (.entered [0, 0]) (monitor.observed (.entered [0])
      (monitor.observed (.dispatching (Routable.path event)) ⟨world, []⟩)) =
        ⟨monitor (.entered [0, 0]) (monitor (.entered [0])
          (monitor (.dispatching (Routable.path event)) world)),
          [.dispatching (Routable.path event), .entered [0], .entered [0, 0]]⟩ := rfl
  simp only [noting, activate, Part.changing, Part.inAnyCase, Part.andThen, hstart, hprocess]
  cases outcome with
  | ok inner => simp [Part.ofExcept, Part.done, Monitor.observed, Except.map]
  | error payload => simp [Part.ofExcept, Monitor.observed, Except.map]

end Dispatcher

/-! ## The last word -/

section Wraps

variable {P : List (Notice E) → Prop} {good : Located E → Prop} {steady : Prop}
  {next : Located E → Part PanicPayload E W (Located E)} {l : Located E}

/-- An `after` handler whose callback leaves the rest of its chain alone makes the last call, if
no panic comes out of the rest of the chain. -/
theorem process_after {address : Address} (hnext : (next l).Ends (SilentAbout address) good steady)
    {g : Guard E} {callback : Callback E W} (hnever : ∀ l, (callback l).NeverProceeds)
    (o : Observed E W) :
    ∃ outcome between world,
      process monitor (.after g callback) address next l o =
        some (outcome, ⟨world, o.notices ++ between⟩) ∧
      (outcome.isOk → CalledLast address between) ∧ (steady → outcome.isOk) := by
  obtain ⟨outcome, earlier, world, hrest, hsilent, _, hok⟩ := hnext o
  cases outcome with
  | error payload =>
      refine ⟨.error payload, earlier, world, ?_, nofun, hok⟩
      simp only [process, Part.andThen, hrest]
  | ok middle =>
      obtain ⟨call, own, after, hcall, hcalls⟩ :=
        invoke_of_never monitor address next (hnever middle) ⟨world, o.notices ++ earlier⟩
      refine ⟨.ok call.2, earlier ++ own, after, ?_, fun _ => ?_, fun _ => rfl⟩
      · simp only [process, Part.andThen, hrest, hcall, Part.done, List.append_assoc]
      · exact ⟨callsOf earlier, middle.ctx, by rw [callsOf_append, hcalls], hsilent.not_called⟩

variable {held : Place → Prop}
  (hnext : ∀ l : Located E, held l.place → (next l).Ends (fun _ => True) (held ·.place) True)

include hnext

/-- A call succeeds if its callback does and no panic comes out of the rest of the chain. -/
theorem invoke_ends_of_succeeds {address : Address} {callback : Callback E W} {l : Located E}
    (hplan : (callback l).KeepsTo held) (hsucceeds : (callback l).Succeeds) :
    (invoke monitor address callback next l).Ends (fun _ => True) (·.1 = true) True := by
  refine .noting (fun _ _ _ _ => trivial) trivial ?_
  refine (Plan.run_ends trivial (fun _ _ _ _ => trivial) hnext hplan).inAnyCase
    (fun _ _ _ _ => trivial) fun outcome _ hok => ?_
  cases outcome with
  | ok result => exact .noting (fun _ _ _ _ => trivial) trivial (.done trivial rfl)
  | error failure => cases hok ⟨trivial, hsucceeds⟩

/-- A handler that takes care of all exceptions leaves none, if no panic comes out of the rest
of the chain. -/
theorem process_recover {address : Address} {g : Guard E} {accepts : Failure → Verdict}
    {callback : Callback E W} (haccepts : ∀ failure, accepts failure = .ok true)
    (hkeeps : ∀ l : Located E, held l.place → (callback l).KeepsTo held)
    (hsucceeds : ∀ l, (callback l).Succeeds) {l : Located E} (hl : held l.place) :
    (process monitor (.recover g accepts callback true) address next l).Ends (fun _ => True)
      (·.ctx.exception = none) True := by
  refine (hnext l hl).andThen (fun _ _ _ _ => trivial) fun middle hmiddle => ?_
  cases hexception : middle.ctx.exception with
  | none => exact .done trivial hexception
  | some failure =>
      have haccepted : (Part.ofExcept (accepts failure) : Part PanicPayload E W Bool).Ends
          (fun _ => True) (· = true) True := by
        rw [haccepts]
        exact .done trivial rfl
      refine haccepted.andThen (fun _ _ _ _ => trivial) ?_
      rintro _ rfl
      refine (invoke_ends_of_succeeds monitor hnext (hkeeps middle hmiddle)
        (hsucceeds middle)).andThen (fun _ _ _ _ => trivial) fun call hcall => ?_
      rw [hcall]
      exact .done trivial rfl

end Wraps

namespace Dispatcher

variable [Routable E] {d : Dispatcher E W} {callback : Callback E W} {rest : List (Handler E W)}
  (event : E) (attributes : Attributes)

theorem openingContext_from : (openingContext event attributes).place.From [0] 1 :=
  ⟨rfl, fun _ => Nat.le_refl _⟩

/-- An `after` handler around everything makes the last call of a dispatch that returns, and
every dispatch returns if neither conditions nor matchers panic. -/
theorem after_calledLast (hbuilt : ofHandlers (.after Guard.any callback :: rest) = .ok d)
    (hkeeps : Handler.All Handler.KeepsPlaces [d.root])
    (hnever : ∀ l, (callback l).NeverProceeds) (world : W) :
    ∃ outcome seen after,
      (∀ depth, Handler.count [d.root] ≤ depth →
        d.process monitor event attributes depth ⟨world, []⟩ = some (outcome, ⟨after, seen⟩)) ∧
      (outcome.isOk → CalledLast [0, 0] seen) ∧
      (Handler.All Handler.Steady [d.root] → outcome.isOk) := by
  obtain ⟨first, mounted, hfirst, hroot⟩ := root_of_ofHandlers_cons hbuilt
  rw [Handler.mount, mount_any_any] at hfirst
  cases hfirst
  obtain ⟨outcome, between, after, ⟨hlast, hok⟩, hprocess⟩ :=
    exists_process_of_first hroot event attributes monitor rfl
      (P := fun outcome between => (outcome.isOk → CalledLast [0, 0] between) ∧
        (Handler.All Handler.Steady [d.root] → outcome.isOk))
      (fun depth hdepth => process_after monitor
        (next_ends_of_first hroot monitor hkeeps hdepth (openingContext_from event attributes))
        hnever) world
  have hisOk : (outcome.map (closingContext event attributes)).isOk = outcome.isOk := by
    cases outcome <;> rfl
  refine ⟨_, _, _, hprocess, ?_, ?_⟩
  · intro hreturns
    obtain ⟨earlier, ctx, hcalls, hbefore⟩ := hlast (hisOk ▸ hreturns)
    refine ⟨earlier, ctx, ?_, hbefore⟩
    have hopening : callsOf [.dispatching (Routable.path event), .entered [0],
        .entered (E := E) [0, 0]] = [] := rfl
    have hclosing : callsOf [.left (E := E) [0, 0], .left [0]] = [] := rfl
    rw [callsOf_append, callsOf_append, hcalls, hopening, hclosing, List.nil_append,
      List.append_nil]
  · rw [hisOk]
    exact hok

/-- A handler around everything that takes care of all exceptions leaves none. -/
theorem exception_eq_none_of_recover {accepts : Failure → Verdict}
    (hbuilt : ofHandlers (.recover Guard.any accepts callback true :: rest) = .ok d)
    (hkeeps : Handler.All Handler.KeepsPlaces [d.root])
    (hsteady : Handler.All Handler.Steady [d.root])
    (haccepts : ∀ failure, accepts failure = .ok true) (hsucceeds : ∀ l, (callback l).Succeeds)
    (world : W) :
    ∃ result seen after,
      (∀ depth, Handler.count [d.root] ≤ depth →
        d.process monitor event attributes depth ⟨world, []⟩ = some (.ok result, ⟨after, seen⟩)) ∧
      result.ctx.exception = none := by
  obtain ⟨first, mounted, hfirst, hroot⟩ := root_of_ofHandlers_cons hbuilt
  rw [Handler.mount, mount_any_any] at hfirst
  cases hfirst
  have hcallback : (Handler.recover Guard.any accepts callback true).KeepsPlaces :=
    hkeeps ([0, 0], _) (by simp [hroot, Handler.listing])
  obtain ⟨outcome, between, after, ⟨inner, rfl, hnone⟩, hprocess⟩ :=
    exists_process_of_first hroot event attributes monitor rfl
      (P := fun outcome _ => ∃ inner, outcome = .ok inner ∧ inner.ctx.exception = none)
      (fun depth hdepth o => by
        have hnext (l : Located E) (hl : l.place.From [0] 1) :
            (next monitor [d.root] depth l).Ends (fun _ => True) (·.place.From [0] 1) True :=
          ((next_ends_of_first hroot monitor hkeeps hdepth hl).mono (fun _ _ => trivial)
            fun _ => id).of_imp fun _ => hsteady
        obtain ⟨outcome, between, world, hran, _, hgood, hok⟩ :=
          process_recover monitor hnext haccepts
            (hcallback callback rfl (Place.From [0] 1) Place.from_detached) hsucceeds
            (openingContext_from event attributes) o
        refine ⟨outcome, between, world, hran, ?_⟩
        cases outcome with
        | ok inner => exact ⟨inner, rfl, hgood inner rfl⟩
        | error payload => cases hok trivial) world
  exact ⟨_, _, _, hprocess, hnone⟩

end Dispatcher

end Carried

/-- What a router answers to a request that has not failed. -/
def Http.Settings.answer (s : Http.Settings) (response : Option Http.Response) :
    Except DispatchError Http.Response :=
  match s.mode, response with
  | _, some response => .ok response
  | .client, none => .error .noResponse
  | .server, none => .ok Http.Response.notFound

theorem Http.Settings.resolve_eq_answer (s : Http.Settings) {ctx : Context Http.Call}
    (hsound : ctx.exception = none) : s.resolve ctx = s.answer ctx.event.response := by
  unfold resolve answer
  rw [hsound]
  cases s.mode <;> cases ctx.event.response <;> rfl

/-- The first handler of a dispatcher has the last word, whatever handlers come behind it and
whatever their callbacks do, as long as they keep places. If it is an `after` handler that does
not run the rest of the chain again, it makes the last call of each dispatch that no panic of a
condition or a matcher takes down. If it takes care of all exceptions, and no condition or
matcher panics, the dispatch ends without an exception, so a server does not answer with the
response to a failed request, and a client is not told of an exception. -/
theorem outermost_handler_has_last_word :
    (∀ {E W : Type} [Routable E] {callback : Carried.Callback E W}
        {rest : List (Carried.Handler E W)} {d : Carried.Dispatcher E W},
      Carried.Dispatcher.ofHandlers (.after Guard.any callback :: rest) = .ok d →
      Carried.Handler.All Carried.Handler.KeepsPlaces [d.root] →
      (∀ l, (callback l).NeverProceeds) →
      ∀ (monitor : Monitor E W) event attributes world, ∃ outcome seen after,
        (∀ depth, Carried.Handler.count [d.root] ≤ depth →
          d.process monitor event attributes depth ⟨world, []⟩ = some (outcome, ⟨after, seen⟩)) ∧
        (outcome.isOk → CalledLast [0, 0] seen) ∧
        (Carried.Handler.All Carried.Handler.Steady [d.root] → outcome.isOk)) ∧
    (∀ {E W : Type} [Routable E] {accepts : Failure → Verdict} {callback : Carried.Callback E W}
        {rest : List (Carried.Handler E W)} {d : Carried.Dispatcher E W},
      Carried.Dispatcher.ofHandlers (.recover Guard.any accepts callback true :: rest) = .ok d →
      Carried.Handler.All Carried.Handler.KeepsPlaces [d.root] →
      Carried.Handler.All Carried.Handler.Steady [d.root] →
      (∀ failure, accepts failure = .ok true) → (∀ l, (callback l).Succeeds) →
      ∀ (monitor : Monitor E W) event attributes world, ∃ result seen after,
        (∀ depth, Carried.Handler.count [d.root] ≤ depth →
          d.process monitor event attributes depth ⟨world, []⟩ = some (.ok result, ⟨after, seen⟩)) ∧
        result.ctx.exception = none) ∧
    (∀ {W : Type} {accepts : Failure → Verdict} {callback : Carried.Callback Http.Call W}
        {rest : List (Carried.Handler Http.Call W)} {d : Carried.Dispatcher Http.Call W},
      Carried.Dispatcher.ofHandlers (.recover Guard.any accepts callback true :: rest) = .ok d →
      Carried.Handler.All Carried.Handler.KeepsPlaces [d.root] →
      Carried.Handler.All Carried.Handler.Steady [d.root] →
      (∀ failure, accepts failure = .ok true) → (∀ l, (callback l).Succeeds) →
      ∀ (monitor : Monitor Http.Call W) request attributes world, ∃ result seen after,
        (∀ depth, Carried.Handler.count [d.root] ≤ depth →
          d.process monitor { request } attributes depth ⟨world, []⟩ =
            some (.ok result, ⟨after, seen⟩)) ∧
        ∀ settings : Http.Settings,
          settings.resolve result.ctx = settings.answer result.ctx.event.response) := by
  refine ⟨?_, ?_, ?_⟩
  · intro E W _ callback rest d hbuilt hkeeps hnever monitor event attributes world
    exact Carried.Dispatcher.after_calledLast monitor event attributes hbuilt hkeeps hnever world
  · intro E W _ accepts callback rest d hbuilt hkeeps hsteady haccepts hsucceeds monitor event
      attributes world
    exact Carried.Dispatcher.exception_eq_none_of_recover monitor event attributes hbuilt hkeeps
      hsteady haccepts hsucceeds world
  · intro W accepts callback rest d hbuilt hkeeps hsteady haccepts hsucceeds monitor request
      attributes world
    obtain ⟨result, seen, after, hprocess, hnone⟩ :=
      Carried.Dispatcher.exception_eq_none_of_recover monitor { request } attributes hbuilt hkeeps
        hsteady haccepts hsucceeds world
    exact ⟨result, seen, after, hprocess, fun settings => settings.resolve_eq_answer hnone⟩

/-- A filter that panics after it has run the rest of the chain twice, and a route that answers
with a fresh context. -/
def unruly : List (Carried.Handler Http.Call Unit) :=
  [.filter Guard.any fun l => .next l fun _ => .next l fun _ => .panic (.text "late"),
    .on Guard.any fun l => .done ((Located.ofEvent l.ctx.event).update (·.withHandled true))]

/-- An `after` handler in front of unruly handlers. -/
def followedUnruly : Carried.Dispatcher Http.Call Unit :=
  ⟨.group Guard.any (.after Guard.any .done :: unruly)⟩

/-- A handler that takes care of all exceptions in front of unruly handlers. -/
def recoveredUnruly : Carried.Dispatcher Http.Call Unit :=
  ⟨.group Guard.any (.recover Guard.any (fun _ => .ok true) .done true :: unruly)⟩

/-- The first handler in front of unruly ones has the last word, and no router tells of the
panic. -/
theorem unruly_outermost_handler_has_last_word :
    (∃ outcome seen after,
      (∀ depth, Carried.Handler.count [followedUnruly.root] ≤ depth →
        followedUnruly.process Monitor.silent ⟨Http.Request.root, none⟩ Attributes.empty depth
          ⟨(), []⟩ = some (outcome, ⟨after, seen⟩)) ∧
        CalledLast [0, 0] seen) ∧
    (∃ result seen after,
      (∀ depth, Carried.Handler.count [recoveredUnruly.root] ≤ depth →
        recoveredUnruly.process Monitor.silent ⟨Http.Request.root, none⟩ Attributes.empty depth
          ⟨(), []⟩ = some (.ok result, ⟨after, seen⟩)) ∧
        result.ctx.exception = none) ∧
    ∃ result seen after,
      (∀ depth, Carried.Handler.count [recoveredUnruly.root] ≤ depth →
        recoveredUnruly.process Monitor.silent ⟨Http.Request.root, none⟩ Attributes.empty depth
          ⟨(), []⟩ = some (.ok result, ⟨after, seen⟩)) ∧
        ∀ settings : Http.Settings,
          settings.resolve result.ctx = settings.answer result.ctx.event.response := by
  obtain ⟨hlast, hsound, hanswer⟩ := outermost_handler_has_last_word
  have hfollowedPlaces :
      Carried.Handler.All Carried.Handler.KeepsPlaces [followedUnruly.root] := by
    simp [Carried.Handler.All, followedUnruly, unruly, Carried.Handler.listing,
      Carried.Handler.KeepsPlaces, Carried.Handler.callback?, Carried.Plan.KeepsTo]
    exact ⟨fun held _ l hl => ⟨hl, fun _ _ => hl⟩, fun _ hdetached _ _ => hdetached⟩
  have hfollowedSteady : Carried.Handler.All Carried.Handler.Steady [followedUnruly.root] := by
    simp [Carried.Handler.All, followedUnruly, unruly, Carried.Handler.listing,
      Carried.Handler.Steady, Carried.Handler.guard, Guard.any, Carried.Handler.verdict,
      Except.isOk, Except.toBool]
  have hrecoveredPlaces :
      Carried.Handler.All Carried.Handler.KeepsPlaces [recoveredUnruly.root] := by
    simp [Carried.Handler.All, recoveredUnruly, unruly, Carried.Handler.listing,
      Carried.Handler.KeepsPlaces, Carried.Handler.callback?, Carried.Plan.KeepsTo]
    exact ⟨fun held _ l hl => ⟨hl, fun _ _ => hl⟩, fun _ hdetached _ _ => hdetached⟩
  have hrecoveredSteady : Carried.Handler.All Carried.Handler.Steady [recoveredUnruly.root] := by
    simp [Carried.Handler.All, recoveredUnruly, unruly, Carried.Handler.listing,
      Carried.Handler.Steady, Carried.Handler.guard, Guard.any, Carried.Handler.verdict,
      Except.isOk, Except.toBool]
  have hfollowed : Carried.Dispatcher.ofHandlers (.after Guard.any .done :: unruly) =
      .ok followedUnruly := rfl
  have hrecovered : Carried.Dispatcher.ofHandlers
      (.recover Guard.any (fun _ => .ok true) .done true :: unruly) = .ok recoveredUnruly := rfl
  refine ⟨?_, ?_, ?_⟩
  · obtain ⟨outcome, seen, after, hprocess, hcalled, hok⟩ :=
      hlast hfollowed hfollowedPlaces (fun _ => trivial) Monitor.silent ⟨Http.Request.root, none⟩
        Attributes.empty ()
    exact ⟨outcome, seen, after, hprocess, hcalled (hok hfollowedSteady)⟩
  · exact hsound hrecovered hrecoveredPlaces hrecoveredSteady (fun _ => rfl) (fun _ => trivial)
      _ _ _ _
  · exact hanswer hrecovered hrecoveredPlaces hrecoveredSteady (fun _ => rfl) (fun _ => trivial)
      _ _ _ _

/-- An `after` handler, and a route with a condition that panics. -/
def panickingCondition : Carried.Dispatcher TextEvent Unit :=
  ⟨.group Guard.any
    [.after Guard.any .done,
      .on (Guard.any.withCondition fun _ => .error (.text "condition")) .done]⟩

/-- An `after` handler around everything is not called if a condition panics, or if the handlers
behind it hand a kept context on for ever. Neither is one called whose expression closes the
group around it: such an expression accepts a path that it does not accept when it is mounted. -/
theorem outermost_handler_not_called :
    (Carried.Dispatcher.ofHandlers panickingCondition.root.inside = .ok panickingCondition ∧
      panickingCondition.callsAt [0, 0] ⟨"/"⟩ 3 () = some 0) ∧
    (Carried.Dispatcher.ofHandlers Carried.Dispatcher.handingBack.root.inside =
        .ok Carried.Dispatcher.handingBack ∧
      ∀ event attributes depth, Carried.Dispatcher.handingBack.process Monitor.silent event
        attributes depth ⟨none, []⟩ = none) ∧
    ∃ (p : Pattern) (d : Carried.Dispatcher TextEvent Unit),
      Pattern.ofExpression "/a)|(?:$" = .ok p ∧ p.accepts "/x" = true ∧
        Carried.Dispatcher.ofHandlers [.after ⟨p, none⟩ .done] = .ok d ∧
        d.callsAt [0, 0] ⟨"/x"⟩ 2 () = some 0 := by
  refine ⟨⟨rfl, by decide +kernel⟩,
    ⟨rfl, Carried.Dispatcher.handingBack_never_ends⟩, ?_⟩
  have hcheck : ((Pattern.ofExpression "/a)|(?:$").toOption.any fun p =>
      p.accepts "/x" && (Carried.Dispatcher.ofHandlers
        [.after (⟨p, none⟩ : Guard TextEvent) (.done : Carried.Callback TextEvent Unit)]).toOption.any
          fun d => d.callsAt [0, 0] ⟨"/x"⟩ 2 () == some 0) = true := by
    decide +kernel
  obtain ⟨p, hp, hcheck⟩ := exists_of_toOption_any hcheck
  obtain ⟨haccepts, hcheck⟩ := Bool.and_eq_true_iff.mp hcheck
  obtain ⟨d, hd, hcalls⟩ := exists_of_toOption_any hcheck
  exact ⟨p, d, hp, haccepts, hd, by simpa using hcalls⟩

end RequestRouting
