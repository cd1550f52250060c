import RequestRouting.Proofs.Splice
import RequestRouting.TextEvent

/-!
# A failed call leaves nothing behind but its exception

Where callbacks look at nothing but their context, a call that fails can be replaced by
one that does nothing but record the exception in the context that it gets: the dispatch
goes on in the same way, with the same contexts. What the call has done before it failed,
updates of the context and runs of the rest of the chain among it, is gone.

`Dispatcher.replacing` makes the replacement, in the world that keeps a record of the
dispatch: callbacks count the calls so far, and the one whose turn it is acts as its
replacement. All others act as before.
-/

namespace RequestRouting

variable {E W : Type}

namespace Plan

/-- What the plan does depends on contexts only, not on the world. -/
def Blind : Plan E W → Prop
  | done _ | fail _ | panic _ => True
  | next _ resume => ∀ ctx, (resume ctx).Blind
  | act _ resume =>
      (∀ world other, resume world = resume other) ∧ ∀ world, (resume world).Blind
  | pause _ resume | abort resume => resume.Blind
  | limited _ _ resume => ∀ result, (resume result).Blind

/-- The plan with a change to the context that it returns. -/
def finishing (change : Context E → Context E) : Plan E W → Plan E W
  | done ctx => done (change ctx)
  | fail failure => fail failure
  | panic payload => panic payload
  | next ctx resume => next ctx fun result => (resume result).finishing change
  | act update resume => act update fun world => (resume world).finishing change
  | pause how resume => pause how (resume.finishing change)
  | abort resume => abort (resume.finishing change)
  | limited limit ctx resume => limited limit ctx fun result => (resume result).finishing change

end Plan

/-- The calls so far. -/
def Observed.calls (o : Observed E W) : List (Address × Context E) := callsOf o.notices

/-- The callback that is replaced in the call with the given number, and that changes the
context that it returns in all other calls. -/
def Callback.replacing (callback : Callback E W) (number : Nat)
    (replacement : Callback E (Observed E W)) (change : Context E → Context E) :
    Callback E (Observed E W) :=
  fun ctx => .act id fun o =>
    if o.calls.length = number + 1 then replacement ctx
    else ((callback ctx).finishing change).observed

namespace Handler

mutual

/-- The handler with the call of the given number replaced by one that only records a
failure: a filter then goes on with the rest of the chain, all others return. So that the
failure is not cleared afterwards, a handler that takes care of exceptions clears them in
its callback. -/
def replacing (number : Nat) (failure : Failure) : Handler E W → Handler E (Observed E W)
  | on p callback =>
      on p (callback.replacing number (fun ctx => .done (ctx.withException failure)) id)
  | after p callback =>
      after p (callback.replacing number (fun ctx => .done (ctx.withException failure)) id)
  | filter p callback =>
      filter p
        (callback.replacing number (fun ctx => .next (ctx.withException failure) .done) id)
  | recover p accepts callback clears =>
      recover p accepts
        (callback.replacing number (fun ctx => .done (ctx.withException failure))
          fun ctx => if clears then ctx.withoutException else ctx)
        false
  | group p handlers => group p (replacingAll number failure handlers)

/-- The handlers of a chain with the call of the given number replaced. -/
def replacingAll (number : Nat) (failure : Failure) :
    List (Handler E W) → List (Handler E (Observed E W))
  | [] => []
  | h :: rest => replacing number failure h :: replacingAll number failure rest

end

/-- The callback of the handler looks at nothing but its context. -/
def Blind (h : Handler E W) : Prop :=
  ∀ callback, h.callback? = some callback → ∀ ctx, (callback ctx).Blind

variable {number : Nat} {failure : Failure}

@[simp]
theorem predicate_replacing (h : Handler E W) :
    (h.replacing number failure).predicate = h.predicate := by
  cases h <;> rfl

@[simp]
theorem isTerminal_replacing (h : Handler E W) :
    (h.replacing number failure).isTerminal = h.isTerminal := by
  cases h <;> rfl

end Handler

@[simp]
theorem Context.goesInto_replacing [Routable E] {number : Nat} {failure : Failure}
    (ctx : Context E) (index : Nat) (h : Handler E W) :
    ctx.goesInto index (h.replacing number failure) = ctx.goesInto index h := by
  simp [Context.goesInto, Handler.runsOnFailure]

/-- The dispatcher with the call of the given number replaced by one that only records a
failure. -/
def Dispatcher.replacing (number : Nat) (failure : Failure) (d : Dispatcher E W) :
    Dispatcher E (Observed E W) :=
  ⟨d.root.replacing number failure⟩

/-! ## The run with the replacement -/

theorem Observed.calls_observed (monitor : Monitor E W) (notice : Notice E)
    (o : Observed E W) :
    (monitor.observed notice o).calls = o.calls ++ notice.call?.toList := by
  simp only [calls, callsOf, Monitor.observed, List.filterMap_append]
  cases hcall : notice.call? <;> simp [hcall]

/-- What a course leads to, a computation leads to as well, with the calls that remain when
the call of the given number is cut short. -/
def Replays (number : Nat) (failure : Failure) (course : Course E)
    (run : Context E → Observed E W → Context E × Observed E W) : Prop :=
  ∀ ctx result seen calls o, course ctx result seen →
    Spliced number failure o.calls.length seen calls →
    ∃ after, run ctx o = (result, after) ∧ after.calls = o.calls ++ calls

section Replays

variable {number : Nat} {failure : Failure} {rest : Course E}
  {next : Context E → Observed E W → Context E × Observed E W}

theorem Spliced.calls_eq_nil {count : Nat} {calls : List (Address × Context E)}
    (hspliced : Spliced number failure count [] calls) : calls = [] := by
  cases hspliced
  rfl

/-- The first of two parts of a run is replayed, and what remains of the calls is left to
the second one. -/
theorem Replays.first {course : Course E}
    {run : Context E → Observed E W → Context E × Observed E W}
    (hreplays : Replays number failure course run) {ctx middle : Context E}
    {first second : List (Notice E)} (hcourse : course ctx middle first) (hwhole : Whole first)
    {calls : List (Address × Context E)} {o : Observed E W}
    (hspliced : Spliced number failure o.calls.length (first ++ second) calls) :
    ∃ between secondCalls, run ctx o = (middle, between) ∧
      Spliced number failure between.calls.length second secondCalls ∧
      ∀ after : Observed E W, after.calls = between.calls ++ secondCalls →
        after.calls = o.calls ++ calls := by
  obtain ⟨firstCalls, secondCalls, rfl, hfirst, hsecond⟩ := hspliced.split hwhole
  obtain ⟨between, hran, hbetween⟩ := hreplays _ _ _ _ o hcourse hfirst
  rw [← List.length_append, ← hbetween] at hsecond
  refine ⟨between, secondCalls, hran, hsecond, ?_⟩
  intro after hafter
  rw [hafter, hbetween, List.append_assoc]

/-- A plan that does not look at the world is carried out in the same way. -/
theorem Plan.Runs.replays (hwhole : ∀ ctx result seen, rest ctx result seen → Whole seen)
    (hnext : Replays number failure rest next) {plan : Plan E W}
    {outcome : Except Failure (Context E)} {seen : List (Notice E)}
    (hruns : plan.Runs rest outcome seen) (hblind : plan.Blind)
    (change : Context E → Context E) {calls : List (Address × Context E)}
    (o : Observed E W) (hspliced : Spliced number failure o.calls.length seen calls) :
    ∃ after, (plan.finishing change).observed.run next o = (outcome.map change, after) ∧
      after.calls = o.calls ++ calls := by
  induction hruns generalizing o calls with
  | done | fail | panic =>
      rw [hspliced.calls_eq_nil, List.append_nil]
      exact ⟨o, rfl, rfl⟩
  | @next ctx middle resume outcome first second hrest _ ih =>
      obtain ⟨between, secondCalls, hran, hsecond, hall⟩ :=
        hnext.first hrest (hwhole _ _ _ hrest) hspliced
      obtain ⟨after, hresumed, hafter⟩ := ih (hblind middle) between hsecond
      refine ⟨after, ?_, hall after hafter⟩
      simp only [finishing, observed, run, hran, hresumed]
  | @act update resume world outcome seen _ ih =>
      obtain ⟨after, hran, hafter⟩ := ih (hblind.2 world) (Observed.change update o) hspliced
      refine ⟨after, ?_, hafter⟩
      simp only [finishing, observed, run]
      rw [hblind.1 _ world]
      exact hran
  | pause how _ ih => exact ih hblind o hspliced
  | abort _ ih => exact ih hblind o hspliced
  | @limited limit ctx middle resume outcome first second hrest _ ih =>
      obtain ⟨between, secondCalls, hran, hsecond, hall⟩ :=
        hnext.first hrest (hwhole _ _ _ hrest) hspliced
      obtain ⟨after, hresumed, hafter⟩ := ih (hblind (some middle)) between hsecond
      refine ⟨after, ?_, hall after hafter⟩
      simp only [finishing, observed, run, hran, hresumed]

namespace Callback.Calls

variable {address : Address} {callback : Callback E W} {ctx : Context E}
  {outcome : Except Failure (Context E)} {seen : List (Notice E)}
  {calls : List (Address × Context E)}

open Blocking (invoke)

/-- A call is made in the same way, or it is the one that is replaced. -/
theorem replays_or_replaced (monitor : Monitor E W)
    (hwhole : ∀ ctx result seen, rest ctx result seen → Whole seen)
    (hsilent : ∀ ctx result seen, rest ctx result seen → SilentAbout address seen)
    (hnext : Replays number failure rest next)
    (hcall : callback.Calls rest address ctx outcome seen) (hblind : (callback ctx).Blind)
    (replacement : Callback E (Observed E W)) (change : Context E → Context E)
    (o : Observed E W) (hspliced : Spliced number failure o.calls.length seen calls) :
    (∃ after, invoke monitor.observed address (callback.replacing number replacement change)
        next ctx o = (outcome.isOk, ctx.afterCall (outcome.map change), after) ∧
      after.calls = o.calls ++ calls) ∨
    (outcome = .error failure ∧ calls = [(address, ctx)] ∧
      invoke monitor.observed address (callback.replacing number replacement change) next ctx o =
        invoke monitor.observed address replacement next ctx o) := by
  obtain ⟨hruns⟩ := hcall
  have hstarted : (monitor.observed (.called address ctx) o).calls =
      o.calls ++ [(address, ctx)] := Observed.calls_observed monitor _ o
  have hlength : (monitor.observed (.called address ctx) o).calls.length =
      o.calls.length + 1 := by
    rw [hstarted, List.length_append]
    rfl
  rcases hspliced.of_called with
    ⟨remaining, rfl, hne, hinner⟩ | ⟨inner, later, remaining, rfl, hnumber, hown, heq, hlater⟩
  · left
    obtain ⟨innerCalls, endedCalls, rfl, hinnerCalls, hended⟩ := hinner.split (hruns.whole hwhole)
    have hnone := (hended.of_other (Notice.call?_ended _ _ _)).calls_eq_nil
    rw [← hlength] at hinnerCalls
    obtain ⟨between, hran, hbetween⟩ := hruns.replays hwhole hnext hblind change _ hinnerCalls
    have hother : ¬ (monitor.observed (.called address ctx) o).calls.length = number + 1 := by
      omega
    have hplan : (callback.replacing number replacement change ctx).run next
        (monitor.observed (.called address ctx) o) = (outcome.map change, between) := by
      simp only [replacing, Plan.run, id_eq, hother, if_false]
      exact hran
    refine ⟨monitor.observed (.ended address ctx (outcome.map change)) between, ?_, ?_⟩
    · rw [invoke, hplan]
      cases outcome <;> rfl
    · rw [Observed.calls_observed, Notice.call?_ended, hbetween, hstarted, hnone]
      simp
  · right
    have hquiet : SilentAbout address _ := hruns.forall_notices hsilent
    obtain ⟨_, hended, hlast⟩ := hquiet.eq_of_append_eq hown
      (Notice.address?_ended address ctx outcome) rfl heq
    subst hlast
    rw [hlater.calls_eq_nil]
    refine ⟨?_, rfl, ?_⟩
    · cases outcome with
      | ok result => cases hended
      | error other =>
          cases hended
          rfl
    · have hturn : (monitor.observed (.called address ctx) o).calls.length = number + 1 := by
        rw [hlength, hnumber]
      have hplan : (callback.replacing number replacement change ctx).run next
          (monitor.observed (.called address ctx) o) =
          (replacement ctx).run next (monitor.observed (.called address ctx) o) := by
        simp only [replacing, Plan.run, id_eq, hturn, if_true]
      rw [invoke, hplan, invoke]

/-- A call that is replaced by one that records the failure goes on as the call does. -/
theorem replays (monitor : Monitor E W)
    (hwhole : ∀ ctx result seen, rest ctx result seen → Whole seen)
    (hsilent : ∀ ctx result seen, rest ctx result seen → SilentAbout address seen)
    (hnext : Replays number failure rest next)
    (hcall : callback.Calls rest address ctx outcome seen) (hblind : (callback ctx).Blind)
    (change : Context E → Context E) (o : Observed E W)
    (hspliced : Spliced number failure o.calls.length seen calls) :
    ∃ succeeded after, invoke monitor.observed address
        (callback.replacing number (fun ctx => .done (ctx.withException failure)) change) next
        ctx o = (succeeded, ctx.afterCall (outcome.map change), after) ∧
      after.calls = o.calls ++ calls := by
  rcases hcall.replays_or_replaced monitor hwhole hsilent hnext hblind
      (fun ctx => .done (ctx.withException failure)) change o hspliced with
    ⟨after, hran, hafter⟩ | ⟨rfl, rfl, hran⟩
  · exact ⟨outcome.isOk, after, hran, hafter⟩
  · rw [hran]
    refine ⟨true, _, rfl, ?_⟩
    rw [Observed.calls_observed, Observed.calls_observed]
    exact List.append_nil _

end Callback.Calls

namespace Handler

open Blocking (invoke process walk)

variable [Routable E]

/-- With the replacement a handler goes on as it does without. -/
theorem Does.replays (monitor : Monitor E W) {inner : Course E} {address : Address}
    (hwhole : ∀ ctx result seen, rest ctx result seen → Whole seen)
    (hsilent : ∀ ctx result seen, rest ctx result seen → SilentAbout address seen)
    (hinnerWhole : ∀ ctx result seen, inner ctx result seen → Whole seen)
    (hnext : Replays number failure rest next) {h : Handler E W}
    (hinner : Replays number failure inner
      (walk monitor.observed (replacingAll number failure h.inside) address 0))
    (hblind : h.Blind) :
    Replays number failure (h.Does rest inner address)
      (process monitor.observed (h.replacing number failure) address next) := by
  intro ctx result seen calls o hdoes hspliced
  cases hdoes with
  | on hcall hrest =>
      obtain ⟨firstCalls, secondCalls, rfl, hfirst, hsecond⟩ :=
        hspliced.split (hcall.whole hwhole hsilent)
      obtain ⟨succeeded, between, hran, hbetween⟩ :=
        hcall.replays monitor hwhole hsilent hnext (hblind _ rfl ctx) id o hfirst
      rw [← List.length_append, ← hbetween] at hsecond
      obtain ⟨after, hlater, hafter⟩ := hnext _ _ _ _ between hrest hsecond
      refine ⟨after, ?_, by rw [hafter, hbetween, List.append_assoc]⟩
      rw [Except.map_id] at hran
      simp only [replacing, process, hran]
      exact hlater
  | @after p callback _ middle outcome first second hrest hcall =>
      obtain ⟨between, secondCalls, hran, hsecond, hall⟩ :=
        hnext.first hrest (hwhole _ _ _ hrest) hspliced
      obtain ⟨succeeded, after, hcalled, hafter⟩ :=
        hcall.replays monitor hwhole hsilent hnext (hblind _ rfl middle) id between hsecond
      refine ⟨after, ?_, hall after hafter⟩
      rw [Except.map_id] at hcalled
      simp only [replacing, process, hran, hcalled]
      rfl
  | filter hcall =>
      rcases hcall.replays_or_replaced monitor hwhole hsilent hnext (hblind _ rfl ctx)
          (fun ctx => .next (ctx.withException failure) .done) id o hspliced with
        ⟨after, hran, hafter⟩ | ⟨hfailed, _⟩
      · refine ⟨after, ?_, hafter⟩
        simp only [replacing, process, hran]
        rfl
      · cases hfailed
  | @failedFilter p callback _ _ other first second hcall hrest =>
      obtain ⟨firstCalls, secondCalls, rfl, hfirst, hsecond⟩ :=
        hspliced.split (hcall.whole hwhole hsilent)
      rcases hcall.replays_or_replaced monitor hwhole hsilent hnext (hblind _ rfl ctx)
          (fun ctx => .next (ctx.withException failure) .done) id o hfirst with
        ⟨between, hran, hbetween⟩ | ⟨hfailed, rfl, hran⟩
      · rw [← List.length_append, ← hbetween] at hsecond
        obtain ⟨after, hlater, hafter⟩ := hnext _ _ _ _ between hrest hsecond
        refine ⟨after, ?_, by rw [hafter, hbetween, List.append_assoc]⟩
        simp only [replacing, process, hran]
        exact hlater
      · -- The replacement runs the rest of the chain from within the call.
        cases hfailed
        have hstarted : (monitor.observed (.called address ctx) o).calls =
            o.calls ++ [(address, ctx)] := Observed.calls_observed monitor _ o
        rw [← List.length_append, ← hstarted] at hsecond
        obtain ⟨between, hlater, hbetween⟩ := hnext _ _ _ _ _ hrest hsecond
        refine ⟨monitor.observed (.returned address result) between, ?_, ?_⟩
        · have hcalled : invoke monitor.observed address
              (fun ctx => .next (ctx.withException failure) .done) next ctx o =
              (true, result, monitor.observed (.returned address result) between) := by
            simp only [invoke, Plan.run, hlater]
          rw [hcalled] at hran
          simp only [replacing, process, hran]
          rfl
        · rw [Observed.calls_observed, hbetween, hstarted]
          simp [Notice.call?]
  | passed hrest hpassed =>
      obtain ⟨after, hran, hafter⟩ := hnext _ _ _ _ o hrest hspliced
      refine ⟨after, ?_, hafter⟩
      simp only [replacing, process, hran, hpassed]
      rfl
  | @recovered p accepts callback clears _ middle outcome first second hrest haccepts hcall =>
      obtain ⟨between, secondCalls, hran, hsecond, hall⟩ :=
        hnext.first hrest (hwhole _ _ _ hrest) hspliced
      obtain ⟨succeeded, after, hcalled, hafter⟩ :=
        hcall.replays monitor hwhole hsilent hnext (hblind _ rfl middle)
          (fun ctx => if clears then ctx.withoutException else ctx) between hsecond
      refine ⟨after, ?_, hall after hafter⟩
      simp only [replacing, process, hran, haccepts, hcalled]
      cases outcome <;> simp [Context.afterCall, Context.afterRecovery, Except.map]
  | @group p handlers _ middle _ first second hfirst hrest =>
      obtain ⟨between, secondCalls, hran, hsecond, hall⟩ :=
        hinner.first hfirst (hinnerWhole _ _ _ hfirst) hspliced
      obtain ⟨after, hlater, hafter⟩ := hnext _ _ _ _ between hrest hsecond
      refine ⟨after, ?_, hall after hafter⟩
      simp only [inside] at hran
      simp only [replacing, process, hran]
      exact hlater

/-- With the replacement a walk goes on as it does without. -/
theorem Walks.replays (monitor : Monitor E W) {handlers : List (Handler E W)}
    (hblind : Throughout (fun h _ => h.Blind) handlers) (address : Address) (index : Nat) :
    Replays number failure (Walks handlers address index)
      (walk monitor.observed (replacingAll number failure handlers) address index) := by
  induction handlers using chainInduction generalizing address index with
  | nil =>
      intro ctx result seen calls o hwalk hspliced
      obtain ⟨rfl, rfl⟩ := walks_nil hwalk
      rw [hspliced.calls_eq_nil, List.append_nil]
      refine ⟨o, ?_, rfl⟩
      simp only [replacingAll, walk]
  | cons h rest ihInside ihRest =>
      obtain ⟨hblindHere, hblindInside, hblindRest⟩ := throughout_cons.mp hblind
      intro ctx result seen calls o hwalk hspliced
      simp only [replacingAll, walk, Context.goesInto_replacing, predicate_replacing]
      rcases walks_cons hwalk with
        ⟨hdetached, rfl, rfl⟩ | ⟨hattached, hpast, hlater⟩ | ⟨hattached, hinto, between, hdoes, rfl⟩
      · rw [hspliced.calls_eq_nil, List.append_nil]
        simp only [hdetached]
        exact ⟨o, rfl, rfl⟩
      · simp only [hattached, hpast]
        exact ihRest hblindRest address (index + 1) _ _ _ _ o hlater hspliced
      · have hreplays := Does.replays (h := h) monitor (fun _ _ _ => Walks.whole)
          (fun _ _ _ hlater => hlater.silentAbout_of_not_within Address.not_within_later_self)
          (fun _ _ _ => Walks.whole) (ihRest hblindRest address (index + 1))
          (ihInside hblindInside (address ++ [index]) 0) hblindHere
        have hentered : (monitor.observed (.entered (address ++ [index])) o).calls = o.calls := by
          rw [Observed.calls_observed]
          exact List.append_nil _
        have hopened := hspliced.of_other rfl
        rw [← hentered] at hopened
        obtain ⟨innerCalls, lastCalls, rfl, hinner, hlast⟩ := hopened.split <|
          hdoes.whole (fun _ _ _ => Walks.whole)
            (fun _ _ _ hlater => hlater.silentAbout_of_not_within Address.not_within_later_self)
            fun _ _ _ => Walks.whole
        obtain ⟨after, hran, hafter⟩ := hreplays _ _ _ _ _ hdoes hinner
        refine ⟨monitor.observed (.left (address ++ [index])) after, ?_, ?_⟩
        · simp only [hattached, hinto, hran]
          rfl
        · rw [Observed.calls_observed, hafter, hentered, (hlast.of_other rfl).calls_eq_nil]
          simp [Notice.call?]

end Handler

end Replays

namespace Dispatcher

open Handler

variable [Routable E] (d : Dispatcher E W) (monitor : Monitor E W) (event : E)
  (attributes : Attributes)

/-- If the call of a callback fails, the dispatch ends with the same context and makes the
same calls before and after it as if the call had only recorded the exception. The context
that goes on after the call is the one that went into it, but for the exception. -/
theorem failure_leaves_only_exception (hblind : Throughout (fun h _ => h.Blind) [d.root])
    (world : W) {earlier later : List (Notice E)} {address : Address} {ctx : Context E}
    {failure : Failure}
    (hfails : d.notices monitor event attributes world =
      earlier ++ .failed address ctx failure :: later) :
    ∃ before inner, earlier = before ++ .called address ctx :: inner ∧
      SilentAbout address inner ∧
      (((d.replacing (callsOf before).length failure).process monitor.observed event attributes
          ⟨world, []⟩).1 = (d.process monitor event attributes world).1 ∧
        ((d.replacing (callsOf before).length failure).process monitor.observed event attributes
          ⟨world, []⟩).2.calls = callsOf before ++ (address, ctx) :: callsOf later) ∧
      ctx.withException failure = { ctx with exception := some failure.exception } := by
  obtain ⟨seen, hwalk, hnotices⟩ := d.walks_notices monitor event attributes world
  have hwhole : Whole (.dispatching (Routable.path event) :: seen) := .other rfl hwalk.whole
  obtain ⟨before, inner, rfl, hown⟩ := hwhole.exists_called (hnotices.symm.trans hfails)
  refine ⟨before, inner, rfl, hown, ?_, rfl⟩
  have hspliced : Spliced (callsOf before).length failure 0
      (.dispatching (Routable.path event) :: seen)
      (callsOf before ++ (address, ctx) :: callsOf later) := by
    rw [← hnotices, hfails, List.append_assoc, List.cons_append]
    exact .of_failed hown (Nat.zero_add _)
  obtain ⟨after, hran, hafter⟩ := Walks.replays monitor hblind [] 0 _ _ _ _
    (monitor.observed (.dispatching (Routable.path event)) ⟨world, []⟩) hwalk
    (hspliced.of_other rfl)
  have hprocess : (d.replacing (callsOf before).length failure).process monitor.observed event
      attributes ⟨world, []⟩ = ((d.process monitor event attributes world).1, after) := hran
  rw [hprocess]
  exact ⟨rfl, hafter⟩

/-- A filter that runs the rest of the chain from an answered context and panics then, and
a route behind it. -/
def latePanic : Dispatcher TextEvent Unit :=
  ⟨.group Predicate.any
    [.filter Predicate.any fun ctx =>
        .next (ctx.withAttribute "seen" (.flag true)) fun _ => .panic (.text "late"),
      .on Predicate.any fun ctx => .done (ctx.withHandled true),
      .after Predicate.any Plan.unchanged]⟩

/-- The notices of a dispatch with `latePanic`. -/
def latePanicNotices : List (Notice TextEvent) :=
  latePanic.notices Monitor.silent ⟨"/"⟩ Attributes.empty ()

/-- The context that goes into the filter of `latePanic`. -/
def latePanicContext : Context TextEvent :=
  (((startContext ⟨"/"⟩ Attributes.empty).select Predicate.any 0).enter).select Predicate.any 0

/-- The answer that the route gave before the panic is gone, as if the filter had only
recorded the panic. -/
theorem latePanic_leaves_only_exception :
    let replaced := (latePanic.replacing 0 (.handler (.panic "late"))).process
      Monitor.silent.observed ⟨"/"⟩ Attributes.empty ⟨(), []⟩
    (callsOf latePanicNotices).map Prod.fst = [[0, 0], [0, 1], [0, 2]] ∧
      replaced.1 = (latePanic.process Monitor.silent ⟨"/"⟩ Attributes.empty ()).1 ∧
      replaced.2.calls.map Prod.fst = [[0, 0], [0, 2]] := by
  have hblind : Throughout (fun h _ => h.Blind) [latePanic.root] := by
    simp [latePanic, throughout_cons, inside, Blind, callback?, Plan.Blind, Plan.unchanged]
  have hfails : latePanicNotices = latePanicNotices.take 8 ++
      .failed [0, 0] latePanicContext (.handler (.panic "late")) ::
        latePanicNotices.drop 9 := rfl
  obtain ⟨before, inner, hearlier, hown, ⟨hresult, hcalls⟩, _⟩ :=
    latePanic.failure_leaves_only_exception Monitor.silent ⟨"/"⟩ Attributes.empty hblind ()
      hfails
  have hbegins : latePanicNotices.take 8 = latePanicNotices.take 3 ++
      .called [0, 0] latePanicContext :: (latePanicNotices.take 8).drop 4 := rfl
  have hbefore : before = latePanicNotices.take 3 := by
    rcases append_cons_cases (hearlier.symm.trans hbegins) with
      ⟨hsame, _⟩ | ⟨between, _, hinner⟩ | ⟨between, _, hrest⟩
    · exact hsame
    · exact (hown (.called [0, 0] latePanicContext) (by simp [hinner]) rfl).elim
    · have hsilent : SilentAbout [0, 0] ((latePanicNotices.take 8).drop 4) := by
        unfold SilentAbout
        decide
      exact (hsilent (.called [0, 0] latePanicContext) (by simp [hrest]) rfl).elim
  subst hbefore
  refine ⟨rfl, hresult, ?_⟩
  exact congrArg (List.map Prod.fst) hcalls

end Dispatcher

end RequestRouting
