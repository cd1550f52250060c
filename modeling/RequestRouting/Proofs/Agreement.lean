import RequestRouting.Proofs.Confined
import RequestRouting.Proofs.Deeper

/-!
# Both ways to go on

The blocking engine walks through the handlers behind the one that runs; where contexts carry
their chain, the engine looks in that chain for the first handler at or behind the cursor. If
callbacks keep places, and conditions and matchers do not panic, both do the same
(`Carried.Dispatcher.process_eq`): the chain that a context carries is the one of the handler
that has it in hands, and its cursor is behind that handler. So what is proved of every
dispatch of the blocking engine holds where contexts carry their chain as well.
-/

namespace RequestRouting

open Handler (observedAll)

variable {E W : Type}

namespace Carried

/-! ## Without chains -/

/-- The plan with contexts that do not carry their chain; the ones in a chain are in the one
at the address. -/
def Plan.plain (chain : Address) : Plan E W → RequestRouting.Plan E W
  | done l => .done l.ctx
  | fail failure => .fail failure
  | panic payload => .panic payload
  | next l resume => .next l.ctx fun ctx => (resume (ctx.inChain chain)).plain chain
  | act update resume => .act update fun world => (resume world).plain chain

/-- The callback of a handler of the chain at an address, with contexts that do not carry
their chain. -/
def Callback.plain (callback : Callback E W) (chain : Address) : RequestRouting.Callback E W :=
  fun ctx => (callback (ctx.inChain chain)).plain chain

/-- The decision, where a panic counts as a refusal. -/
def Verdict.holds (verdict : Verdict) : Bool := verdict.toOption.getD false

namespace Handler

mutual

/-- The handler at an index of the chain at an address, with contexts that do not carry their
chain. Panics of conditions and matchers count as refusals. -/
def plain (h : Handler E W) (chain : Address) (index : Nat) : RequestRouting.Handler E W :=
  match h with
  | on g callback => .on g.predicate (Callback.plain callback chain)
  | after g callback => .after g.predicate (Callback.plain callback chain)
  | filter g callback => .filter g.predicate (Callback.plain callback chain)
  | recover g accepts callback clears =>
      .recover g.predicate (fun failure => Verdict.holds (accepts failure))
        (Callback.plain callback chain) clears
  | group g handlers => .group g.predicate (plainAll handlers (chain ++ [index]) 0)

/-- The handlers of the chain at an address, from an index on, with contexts that do not carry
their chain. -/
def plainAll (handlers : List (Handler E W)) (chain : Address) (index : Nat) :
    List (RequestRouting.Handler E W) :=
  match handlers with
  | [] => []
  | h :: rest => plain h chain index :: plainAll rest chain (index + 1)

end

variable (h : Handler E W) (chain : Address) (index : Nat)

@[simp]
theorem predicate_plain : (h.plain chain index).predicate = h.guard.predicate := by
  cases h <;> simp [plain, guard, RequestRouting.Handler.predicate]

@[simp]
theorem isTerminal_plain : (h.plain chain index).isTerminal = h.isTerminal := by
  cases h <;> simp [plain, isTerminal, RequestRouting.Handler.isTerminal]

@[simp]
theorem inside_plain :
    (h.plain chain index).inside = plainAll h.inside (chain ++ [index]) 0 := by
  cases h <;> simp [plain, inside, RequestRouting.Handler.inside, plainAll]

end Handler

/-- The dispatcher with contexts that do not carry their chain. -/
def Dispatcher.plain (d : Dispatcher E W) : RequestRouting.Dispatcher E W :=
  ⟨d.root.plain [] 0⟩

/-! ## Plans and calls -/

theorem Place.from_inChain {chain : Address} {index : Nat} (ctx : Context E)
    (hcursor : ctx.position.attached → index ≤ ctx.position.cursor) :
    (ctx.inChain chain).place.From chain index := ⟨rfl, hcursor⟩

/-- What is in a chain or outside any is the context in that chain. -/
theorem Place.From.inChain_ctx {chain : Address} {index : Nat} {l : Located E}
    (hl : l.place.From chain index) : l.ctx.inChain chain = l := by
  obtain ⟨ctx, own⟩ := l
  exact congrArg (Located.mk ctx) hl.chain_eq.symm

/-- The part does with the context in the chain at an address what the walk does, and what
comes back is at an index of that chain or behind it, or outside any. -/
def Agrees (chain : Address) (index : Nat) (part : Part PanicPayload E W (Located E))
    (walk : Observed E W → Context E × Observed E W) : Prop :=
  ∀ o, part o = some (.ok ((walk o).1.inChain chain), (walk o).2) ∧
    ((walk o).1.inChain chain).place.From chain index

section Call

variable {chain : Address} {index : Nat}
  {next : Located E → Part PanicPayload E W (Located E)}
  {walk : Context E → Observed E W → Context E × Observed E W}
  (hnext : ∀ ctx : Context E, (ctx.inChain chain).place.From chain index →
    Agrees chain index (next (ctx.inChain chain)) (walk ctx))

include hnext

/-- A plan that keeps to places in a chain is carried out in the same way. -/
theorem Plan.run_eq {plan : Plan E W} (hplan : plan.KeepsTo (Place.From chain index))
    (o : Observed E W) :
    plan.run next o =
        some (((plan.plain chain).observed.run walk o).1.map (·.inChain chain),
          ((plan.plain chain).observed.run walk o).2) ∧
      ∀ result, ((plan.plain chain).observed.run walk o).1 = .ok result →
        (result.inChain chain).place.From chain index := by
  induction plan generalizing o with
  | done l =>
      have hl : l.ctx.inChain chain = l := Place.From.inChain_ctx hplan
      refine ⟨?_, ?_⟩
      · change _ = some (Except.ok (l.ctx.inChain chain), o)
        rw [hl]
        rfl
      · rintro _ ⟨⟩
        rw [hl]
        exact hplan
  | fail failure => exact ⟨rfl, nofun⟩
  | panic payload => exact ⟨rfl, nofun⟩
  | next l resume ih =>
      obtain ⟨hl, hresume⟩ := hplan
      obtain ⟨hsome, hresult⟩ := hnext l.ctx (by rwa [hl.inChain_ctx]) o
      rw [hl.inChain_ctx] at hsome
      simp only [run, Part.inAnyCase, hsome]
      exact ih _ (hresume _ hresult) _
  | act update resume ih => exact ih _ (hplan _) _

variable (monitor : Monitor E W) (address : Address)

/-- A callback that keeps places is called as the blocking engine calls it. -/
theorem invoke_eq {callback : Callback E W} {ctx : Context E}
    (hctx : (ctx.inChain chain).place.From chain index)
    (hplan : (callback (ctx.inChain chain)).KeepsTo (Place.From chain index))
    (o : Observed E W) {call : Bool × Context E × Observed E W}
    (hcall : Blocking.invoke monitor.observed address
      (fun ctx => (Callback.plain callback chain ctx).observed) walk ctx o = call) :
    invoke monitor address callback next (ctx.inChain chain) o =
        some (.ok (call.1, call.2.1.inChain chain), call.2.2) ∧
      (call.2.1.inChain chain).place.From chain index := by
  obtain ⟨hrun, hresult⟩ := Plan.run_eq hnext hplan (monitor.observed (.called address ctx) o)
  subst hcall
  rw [Blocking.invoke, Callback.plain]
  have hcalled : (monitor.observed (.called address (ctx.inChain chain).ctx) o) =
      monitor.observed (.called address ctx) o := rfl
  simp only [invoke, noting, Part.changing, Part.inAnyCase, hcalled, hrun]
  generalize ((callback (ctx.inChain chain)).plain chain).observed.run walk
    (monitor.observed (.called address ctx) o) = ran at hresult ⊢
  obtain ⟨outcome, after⟩ := ran
  cases outcome with
  | ok result => exact ⟨rfl, hresult result rfl⟩
  | error failure => exact ⟨rfl, hctx⟩

/-- A handler whose callback keeps places, and that does not panic, runs as in the blocking
engine, where the same holds of the rest of its chain and of the chain inside it. -/
theorem process_eq [Routable E] {h : Handler E W} {place : Nat} (hkeeps : h.KeepsPlaces)
    (hsteady : h.Steady)
    (hinner : ∀ ctx : Context E, Agrees address 0 (next (ctx.enter.inChain address))
      (Blocking.walk monitor.observed (observedAll (Handler.plainAll h.inside address 0)) address 0
        ctx.enter))
    (haddress : address = chain ++ [place]) (ctx : Context E)
    (hctx : (ctx.inChain chain).place.From chain index) :
    Agrees chain index (process monitor h address next (ctx.inChain chain))
      (Blocking.process monitor.observed (h.plain chain place).observed address walk ctx) := by
  have hinvoke {callback : Callback E W} (hcallback : h.callback? = some callback)
      {ctx : Context E} (hctx : (ctx.inChain chain).place.From chain index) (o : Observed E W) :=
    invoke_eq hnext monitor address hctx
      (hkeeps callback hcallback _ Place.from_detached _ hctx) o rfl
  intro o
  cases h with
  | on g callback =>
      obtain ⟨hcall, hplace⟩ := hinvoke rfl hctx o
      simp only [process, Part.andThen, hcall, Handler.plain, RequestRouting.Handler.observed,
        Blocking.process]
      exact hnext _ hplace _
  | after g callback =>
      obtain ⟨hrest, hplace⟩ := hnext ctx hctx o
      obtain ⟨hcall, hlast⟩ := hinvoke rfl hplace (walk ctx o).2
      simp only [process, Part.andThen, hrest, hcall, Part.done, Handler.plain,
        RequestRouting.Handler.observed, Blocking.process, true_and]
      exact hlast
  | filter g callback =>
      obtain ⟨hcall, hplace⟩ := hinvoke rfl hctx o
      simp only [process, Part.andThen, hcall, Handler.plain, RequestRouting.Handler.observed,
        Blocking.process]
      split
      · exact ⟨rfl, hplace⟩
      · exact hnext _ hplace _
  | recover g accepts callback clears =>
      obtain ⟨hrest, hplace⟩ := hnext ctx hctx o
      obtain ⟨hcall, hlast⟩ := hinvoke rfl hplace (walk ctx o).2
      simp only [process, Part.andThen, hrest, Handler.plain, RequestRouting.Handler.observed,
        Blocking.process]
      have hexception : ((walk ctx o).1.inChain chain).ctx.exception = (walk ctx o).1.exception :=
        rfl
      rw [hexception]
      cases (walk ctx o).1.exception with
      | none => exact ⟨rfl, hplace⟩
      | some failure =>
          have hok : (accepts failure).isOk := hsteady.2 failure
          rcases hverdict : accepts failure with payload | accepted
          · rw [hverdict] at hok
            cases hok
          · simp only [Option.any_some, hverdict]
            cases accepted with
            | false => exact ⟨rfl, hplace⟩
            | true =>
                simp only [Part.andThen, Part.ofExcept, if_true, hcall, Part.done, Verdict.holds,
                  Except.toOption, Option.getD_some]
                generalize Blocking.invoke _ _ _ _ _ (walk ctx o).2 = call at hlast ⊢
                cases call.1 && clears <;> exact ⟨rfl, hlast⟩
  | group g handlers =>
      obtain ⟨hinside, _⟩ := hinner ctx o
      subst haddress
      have henter : (ctx.inChain chain).enter (chain ++ [place]) =
          ctx.enter.inChain (chain ++ [place]) := rfl
      simp only [Handler.inside] at hinside
      simp only [process, Part.andThen, henter, hinside, Handler.plain,
        RequestRouting.Handler.observed, Blocking.process]
      generalize Blocking.walk _ _ _ 0 ctx.enter o = walked
      exact hnext (walked.1.leave ctx.position) hctx walked.2

end Call

/-! ## Chains -/

section Chain

variable [Routable E] (monitor : Monitor E W)

/-- The walk of the blocking engine through the handlers of the chain at an address, from an
index on. -/
def walkPlain (handlers : List (Handler E W)) (chain : Address) (index : Nat) :
    Context E → Observed E W → Context E × Observed E W :=
  Blocking.walk monitor.observed (observedAll (Handler.plainAll handlers chain index)) chain index

/-- What the blocking engine does with a context that goes into the handler at an index of the
chain at an address, with the given handlers behind it. -/
def activatePlain (h : Handler E W) (rest : List (Handler E W)) (chain : Address) (index : Nat)
    (ctx : Context E) (o : Observed E W) : Context E × Observed E W :=
  let here := chain ++ [index]
  let (result, o) := Blocking.process monitor.observed (h.plain chain index).observed here
    (walkPlain monitor rest chain (index + 1)) (ctx.select h.guard.predicate index)
    (monitor.observed (.entered here) o)
  (result, monitor.observed (.left here) o)

/-- A guard that does not panic decides as its predicate does. -/
theorem Guard.accepts_eq {g : Guard E}
    (hsteady : ∀ condition ∈ g.condition, ∀ event, (condition event).isOk) (event : E) :
    g.accepts event = .ok (g.predicate.accepts event) := by
  rw [Guard.accepts, Predicate.accepts, Guard.predicate]
  cases hpattern : g.pattern.accepts (Routable.path event) with
  | false => rfl
  | true =>
      cases hcondition : g.condition with
      | none => rfl
      | some condition =>
          have hok := hsteady condition hcondition event
          cases hverdict : condition event with
          | error payload => rw [hverdict] at hok; cases hok
          | ok holds => simp [hverdict, Except.toOption]

/-- The handlers in front of the cursor are passed over. -/
theorem upcoming?_drop (ctx : Context E) (handlers : List (Handler E W)) (start place : Nat)
    (hcursor : start + place ≤ ctx.position.cursor) :
    upcoming? ctx start handlers = upcoming? ctx (start + place) (handlers.drop place) := by
  induction place generalizing start handlers with
  | zero => rfl
  | succ place ih =>
      cases handlers with
      | nil => rfl
      | cons h rest =>
          have hbehind : mayGoInto ctx start h = false := by
            have hfront : ¬ctx.position.cursor ≤ start := by omega
            simp [mayGoInto, hfront]
          rw [upcoming?, hbehind, if_neg Bool.false_ne_true, ih rest _ (by omega), List.drop_succ_cons]
          congr 1
          omega

/-- Without panics, the handler ahead is the first one that a context may go into and whose
predicate accepts the event. -/
theorem upcoming?_cons {h : Handler E W} (hsteady : h.Steady) (ctx : Context E) (index : Nat)
    (rest : List (Handler E W)) :
    upcoming? ctx index (h :: rest) =
      if mayGoInto ctx index h && h.guard.predicate.accepts ctx.event then .ok (some (index, h))
      else upcoming? ctx (index + 1) rest := by
  rw [upcoming?, Guard.accepts_eq hsteady.1]
  cases mayGoInto ctx index h with
  | false => rfl
  | true => cases h.guard.predicate.accepts ctx.event <;> rfl

variable {handlers : List (Handler E W)} {chain : Address} {index : Nat} {ctx : Context E}

/-- Outside any chain the blocking engine has nothing to go on with either. -/
theorem walkPlain_of_detached (hdetached : ctx.position.attached = false) (o : Observed E W) :
    walkPlain monitor handlers chain index ctx o = (ctx, o) := by
  cases handlers <;>
    simp [walkPlain, Handler.plainAll, observedAll, Blocking.walk, hdetached]

variable (hattached : ctx.position.attached)

include hattached

theorem walkPlain_cons (h : Handler E W) (rest : List (Handler E W)) (o : Observed E W) :
    walkPlain monitor (h :: rest) chain index ctx o =
      if mayGoInto ctx index h && h.guard.predicate.accepts ctx.event then
        activatePlain monitor h rest chain index ctx o
      else walkPlain monitor rest chain (index + 1) ctx o := by
  have hgoes : ctx.goesInto index (h.plain chain index).observed =
      (mayGoInto ctx index h && h.guard.predicate.accepts ctx.event) := by
    simp [Context.goesInto, mayGoInto, RequestRouting.Handler.runsOnFailure]
  rw [walkPlain, Handler.plainAll, observedAll, Blocking.walk, if_pos hattached, hgoes,
    RequestRouting.Handler.predicate_observed, Handler.predicate_plain]
  rfl

/-- Where no handler is ahead, the walk of the blocking engine gets to the end of the chain. -/
theorem walkPlain_of_end (hsteady : ∀ h ∈ handlers, h.Steady)
    (hupcoming : upcoming? ctx index handlers = .ok none) (o : Observed E W) :
    walkPlain monitor handlers chain index ctx o = (ctx.atEnd (index + handlers.length), o) := by
  induction handlers generalizing index with
  | nil => simp [walkPlain, Handler.plainAll, observedAll, Blocking.walk, hattached]
  | cons h rest ih =>
      obtain ⟨hfirst, hrest⟩ := List.forall_mem_cons.mp hsteady
      rw [upcoming?_cons hfirst] at hupcoming
      by_cases hgoes : (mayGoInto ctx index h && h.guard.predicate.accepts ctx.event) = true
      · rw [if_pos hgoes] at hupcoming
        cases hupcoming
      · rw [if_neg hgoes] at hupcoming
        rw [walkPlain_cons monitor hattached, if_neg hgoes, ih hrest hupcoming, List.length_cons,
          Nat.add_right_comm, Nat.add_assoc]

/-- The walk of the blocking engine goes into the handler that is found ahead. -/
theorem walkPlain_of_upcoming (hsteady : ∀ h ∈ handlers, h.Steady) {place : Nat}
    {h : Handler E W} (hupcoming : upcoming? ctx index handlers = .ok (some (place, h)))
    (o : Observed E W) :
    walkPlain monitor handlers chain index ctx o =
      activatePlain monitor h (handlers.drop (place + 1 - index)) chain place ctx o := by
  induction handlers generalizing index with
  | nil => cases hupcoming
  | cons first rest ih =>
      obtain ⟨hfirst, hrest⟩ := List.forall_mem_cons.mp hsteady
      rw [upcoming?_cons hfirst] at hupcoming
      by_cases hgoes : (mayGoInto ctx index first && first.guard.predicate.accepts ctx.event) = true
      · rw [if_pos hgoes] at hupcoming
        cases hupcoming
        rw [walkPlain_cons monitor hattached, if_pos hgoes, Nat.add_sub_cancel_left]
        rfl
      · rw [if_neg hgoes] at hupcoming
        obtain ⟨found, rfl, _⟩ := upcoming?_eq_some hupcoming
        have hdrop : index + 1 + found + 1 - index = (index + 1 + found + 1 - (index + 1)) + 1 := by
          omega
        rw [walkPlain_cons monitor hattached, if_neg hgoes, ih hrest hupcoming, hdrop,
          List.drop_succ_cons]

omit hattached

/-! ## The same dispatch -/

variable {root : List (Handler E W)}

/-- Going on with a context in the chain that it carries is the walk through the rest of that
chain, if running the handler that it goes into is. -/
theorem advance_eq (hsteady : Handler.All Handler.Steady root)
    (hindex : index ≤ (Handler.chainAt root chain).length)
    {run : Handler E W → Address → Located E → Part PanicPayload E W (Located E)}
    (hctx : (ctx.inChain chain).place.From chain index)
    (hrun : ∀ place h, (Handler.chainAt root chain)[place]? = some h → index ≤ place →
      Agrees chain index
        (run h (chain ++ [place]) ((ctx.inChain chain).select h.guard place))
        (activatePlain monitor h ((Handler.chainAt root chain).drop (place + 1)) chain place ctx)) :
    Agrees chain index (advance root run (ctx.inChain chain))
      (walkPlain monitor ((Handler.chainAt root chain).drop index) chain index ctx) := by
  have hsteadyChain : ∀ h ∈ (Handler.chainAt root chain).drop index, h.Steady := fun h hmem =>
    hsteady.of_mem_chainAt (List.mem_of_mem_drop hmem)
  cases hattached : ctx.position.attached with
  | false =>
      have hchain : (ctx.inChain chain).chain = none := by simp [Context.inChain, hattached]
      intro o
      rw [advance_of_none hchain, walkPlain_of_detached monitor hattached]
      exact ⟨rfl, hctx⟩
  | true =>
      have hchain : (ctx.inChain chain).chain = some chain := by simp [Context.inChain, hattached]
      have hahead := upcoming?_drop ctx (Handler.chainAt root chain) 0 index
        (by rw [Nat.zero_add]; exact hctx.le_cursor hattached)
      rw [Nat.zero_add] at hahead
      have hok : (upcoming? ctx index ((Handler.chainAt root chain).drop index)).isOk :=
        upcoming?_isOk index hsteadyChain
      rcases hupcoming : upcoming? ctx index ((Handler.chainAt root chain).drop index) with
        payload | _ | ⟨place, h⟩
      · rw [hupcoming] at hok
        cases hok
      · intro o
        rw [advance_of_end hchain (hahead.trans hupcoming),
          walkPlain_of_end monitor hattached hsteadyChain hupcoming, List.length_drop,
          Nat.add_sub_cancel' hindex]
        have hend : (ctx.inChain chain).atEnd (Handler.chainAt root chain).length =
            (ctx.atEnd (Handler.chainAt root chain).length).inChain chain := rfl
        rw [hend]
        exact ⟨rfl, Place.from_inChain _ fun _ => hindex⟩
      · obtain ⟨found, rfl, hget, hcursor⟩ := upcoming?_eq_some hupcoming
        rw [List.getElem?_drop] at hget
        have hwalk : walkPlain monitor ((Handler.chainAt root chain).drop index) chain index ctx =
            activatePlain monitor h ((Handler.chainAt root chain).drop (index + found + 1)) chain
              (index + found) ctx := by
          funext o
          rw [walkPlain_of_upcoming monitor hattached hsteadyChain hupcoming, List.drop_drop]
          congr 2
          omega
        rw [advance_of_upcoming hchain (hahead.trans hupcoming), hwalk]
        exact hrun _ h hget (Nat.le_add_right _ _)

/-- From a place in a chain, going on with a context in the chain that it carries is the walk
through the rest of that chain. -/
theorem next_eq_walk (hkeeps : Handler.All Handler.KeepsPlaces root)
    (hsteady : Handler.All Handler.Steady root) (depth : Nat) (chain : Address) (index : Nat)
    (hindex : index ≤ (Handler.chainAt root chain).length)
    (hdepth : (Handler.order ((Handler.chainAt root chain).drop index) chain index).length ≤ depth)
    {ctx : Context E} (hctx : (ctx.inChain chain).place.From chain index) :
    Agrees chain index (next monitor root depth (ctx.inChain chain))
      (walkPlain monitor ((Handler.chainAt root chain).drop index) chain index ctx) := by
  induction depth generalizing chain index ctx with
  | zero =>
      rw [next]
      refine advance_eq monitor hsteady hindex hctx fun place h hget hle => ?_
      have hlength := (Handler.order_drop_sublist_of_get chain hget hle).length_le
      rw [List.length_cons] at hlength
      omega
  | succ depth ih =>
      rw [next]
      refine advance_eq monitor hsteady hindex hctx fun place h hget hle => ?_
      have hhandler := List.mem_of_getElem? hget
      have hplace := (List.getElem?_eq_some_iff.mp hget).1
      have hlength := (Handler.order_drop_sublist_of_get chain hget hle).length_le
      rw [List.length_cons, List.length_append] at hlength
      have hinner (ctx : Context E) := ih (chain ++ [place]) 0 (Nat.zero_le _)
        (by rw [Handler.chainAt_concat hget, List.drop_zero]; omega)
        (Place.from_inChain ctx.enter fun _ => Nat.zero_le _)
      rw [Handler.chainAt_concat hget, List.drop_zero] at hinner
      have hselect : (ctx.inChain chain).select h.guard place =
          (ctx.select h.guard.predicate place).inChain chain := rfl
      rw [hselect]
      have hprocess := process_eq
        (fun ctx hctx => ih chain (place + 1) (by omega) (by omega) hctx) monitor _
        (hkeeps.of_mem_chainAt hhandler) (hsteady.of_mem_chainAt hhandler) hinner rfl
        (ctx.select h.guard.predicate place) (Place.from_inChain _ fun _ => Nat.le_refl _)
      intro o
      obtain ⟨hran, hfrom⟩ := hprocess (monitor.observed (.entered (chain ++ [place])) o)
      simp only [activate, noting, Part.changing, Part.inAnyCase, hran, Part.ofExcept]
      exact ⟨rfl, hfrom.mono (by omega)⟩

end Chain

/-- If callbacks keep places, and conditions and matchers do not panic, a dispatch with as many
levels as there are handlers is the one of the blocking engine. -/
theorem Dispatcher.process_eq [Routable E] (d : Dispatcher E W) (monitor : Monitor E W)
    (event : E) (attributes : Attributes) (hkeeps : Handler.All Handler.KeepsPlaces [d.root])
    (hsteady : Handler.All Handler.Steady [d.root]) {depth : Nat}
    (hdepth : Handler.count [d.root] ≤ depth) (world : W) :
    d.process monitor event attributes depth ⟨world, []⟩ =
      some (.ok ((d.plain.observed.process monitor.observed event attributes ⟨world, []⟩).1.inChain
          []),
        (d.plain.observed.process monitor.observed event attributes ⟨world, []⟩).2) := by
  have hstart : startContext event attributes =
      (RequestRouting.Dispatcher.startContext event attributes).inChain [] := rfl
  obtain ⟨hnext, _⟩ := next_eq_walk monitor hkeeps hsteady depth [] 0 (Nat.zero_le _)
    (by rwa [Handler.chainAt, List.drop_zero, Handler.order, List.length_map])
    (Place.from_inChain (RequestRouting.Dispatcher.startContext event attributes)
      fun _ => Nat.zero_le _)
    (monitor.observed (.dispatching (Routable.path event)) ⟨world, []⟩)
  rw [process, noting, Part.changing, hstart, hnext, Handler.chainAt, List.drop_zero, walkPlain,
    Handler.plainAll, Handler.plainAll]
  rfl

end Carried

end RequestRouting
