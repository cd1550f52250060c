import RequestRouting.Proofs.Reached
import RequestRouting.TextEvent

/-!
# What goes into callbacks

Routes and filters call their callback at once, so it gets the context that the handler has
been selected for. All others get what comes back from the rest of their chain, which may be
any context. That is all there is to say about the contexts of calls if nothing is known
about the callbacks, and it holds with both engines, also where a dispatch is cut off by a
limit of time or is aborted.

It is said once for each engine, as a rule for what holds of all notices
(`Walks.forall_notices`, `Suspending.walk_keeps`). That routes get fresh requests only
follows from it.
-/

namespace RequestRouting

open Handler (listing mem_listing_cons eq_of_mem_listing)

variable {E W : Type}

/-- The context is one that the handler has been selected for. -/
def Context.SelectedFor [Routable E] (ctx : Context E) (h : Handler E W) : Prop :=
  ∃ (start : Context E) (index : Nat),
    start.goesInto index h = true ∧ ctx = start.select h.predicate index

section Rules

variable {P : Notice E → Prop} (hother : ∀ notice : Notice E, notice.call? = none → P notice)

include hother

/-! ## The blocking engine -/

theorem Callback.Calls.forall_of_called {rest : Course E} {address : Address}
    {callback : Callback E W} {ctx : Context E} {outcome : Except Failure (Context E)}
    {seen : List (Notice E)} (hcalled : P (.called address ctx))
    (hrest : ∀ ctx result seen, rest ctx result seen → ∀ notice ∈ seen, P notice)
    (hcall : callback.Calls rest address ctx outcome seen) : ∀ notice ∈ seen, P notice := by
  obtain ⟨hruns⟩ := hcall
  have hended : P (.ended address ctx outcome) := by
    apply hother
    cases outcome <;> rfl
  intro notice hnotice
  simp only [List.mem_cons, List.mem_append, List.not_mem_nil, or_false] at hnotice
  rcases hnotice with rfl | hnotice | rfl
  · exact hcalled
  · exact hruns.forall_notices hrest notice hnotice
  · exact hended

namespace Handler

/-- What holds of the calls that a handler makes holds of all its notices. -/
theorem Does.forall_of_called {rest inner : Course E} {h : Handler E W} {address : Address}
    {ctx result : Context E} {seen : List (Notice E)}
    (hcalled : ∀ middle, (h.opens → middle = ctx) → P (.called address middle))
    (hrest : ∀ ctx result seen, rest ctx result seen → ∀ notice ∈ seen, P notice)
    (hinner : ∀ ctx result seen, inner ctx result seen → ∀ notice ∈ seen, P notice)
    (hdoes : h.Does rest inner address ctx result seen) : ∀ notice ∈ seen, P notice := by
  cases hdoes with
  | on hcall hlater =>
      have hfirst := hcall.forall_of_called hother (hcalled _ fun _ => rfl) hrest
      exact List.forall_mem_append.mpr ⟨hfirst, hrest _ _ _ hlater⟩
  | after hearlier hcall =>
      have hlast := hcall.forall_of_called hother (hcalled _ nofun) hrest
      exact List.forall_mem_append.mpr ⟨hrest _ _ _ hearlier, hlast⟩
  | filter hcall => exact hcall.forall_of_called hother (hcalled _ fun _ => rfl) hrest
  | failedFilter hcall hlater =>
      have hfirst := hcall.forall_of_called hother (hcalled _ fun _ => rfl) hrest
      exact List.forall_mem_append.mpr ⟨hfirst, hrest _ _ _ hlater⟩
  | passed hearlier _ => exact hrest _ _ _ hearlier
  | recovered hearlier _ hcall =>
      have hlast := hcall.forall_of_called hother (hcalled _ nofun) hrest
      exact List.forall_mem_append.mpr ⟨hrest _ _ _ hearlier, hlast⟩
  | group hinside hlater =>
      exact List.forall_mem_append.mpr ⟨hinner _ _ _ hinside, hrest _ _ _ hlater⟩

variable [Routable E]

/-- What holds of every call for which a route or a filter has been selected, and of every
call of the other handlers, holds of all notices of a walk. -/
theorem Walks.forall_notices {handlers : List (Handler E W)} {address : Address}
    {index : Nat} {ctx result : Context E} {seen : List (Notice E)}
    (hcalled : ∀ a h ctx, (a, h) ∈ listing (fun _ => true) handlers address index →
      (h.opens → ctx.SelectedFor h) → P (.called a ctx))
    (hwalk : Walks handlers address index ctx result seen) : ∀ notice ∈ seen, P notice := by
  induction handlers using chainInduction generalizing address index ctx result seen with
  | nil =>
      obtain ⟨_, rfl⟩ := walks_nil hwalk
      simp
  | cons h rest ihInside ihRest =>
      have hlater {ctx result seen} (hrest : Walks rest address (index + 1) ctx result seen) :
          ∀ notice ∈ seen, P notice := by
        refine ihRest (fun a later ctx hmem => ?_) hrest
        exact hcalled a later ctx (mem_listing_cons.mpr (.inr hmem))
      rcases walks_cons hwalk with
        ⟨_, _, rfl⟩ | ⟨_, _, hrest⟩ | ⟨_, hinto, between, hdoes, rfl⟩
      · simp
      · exact hlater hrest
      · have hbetween : ∀ notice ∈ between, P notice := by
          refine hdoes.forall_of_called hother (fun middle hmiddle => ?_)
            (fun _ _ _ => hlater) fun _ _ _ => ihInside fun a inner ctx hmem => ?_
          · apply hcalled _ h _ (mem_listing_cons.mpr (.inl ⟨rfl, .inl ⟨rfl, rfl⟩⟩))
            exact fun hopens => ⟨ctx, index, hinto, hmiddle hopens⟩
          · exact hcalled a inner ctx (mem_listing_cons.mpr (.inl ⟨rfl, .inr hmem⟩))
        intro notice hnotice
        simp only [List.mem_cons, List.mem_append, List.not_mem_nil, or_false] at hnotice
        rcases hnotice with rfl | hnotice | rfl
        · exact hother _ rfl
        · exact hbetween notice hnotice
        · exact hother _ rfl

end Handler

end Rules

/-! ## The suspending engine -/

namespace Task

/-- Each step of the task keeps the world as the invariant says, also where the task is left
at a limit of time. -/
def Keeps (invariant : W → Prop) : Task E W → Prop
  | done _ => True
  | act update resume =>
      ∀ world, invariant world →
        invariant (update world) ∧ (resume (update world)).Keeps invariant
  | pause _ resume | abort resume => resume.Keeps invariant
  | limited _ part resume =>
      part.Keeps invariant ∧ ∀ result, (resume result).Keeps invariant

variable {invariant : W → Prop} {task : Task E W}

theorem Keeps.bind {onward : Context E → Task E W} (htask : task.Keeps invariant)
    (honward : ∀ ctx, (onward ctx).Keeps invariant) : (task.bind onward).Keeps invariant := by
  induction task with
  | done ctx => exact honward ctx
  | act update resume ih =>
      intro world hworld
      obtain ⟨hupdated, hresume⟩ := htask world hworld
      exact ⟨hupdated, ih _ hresume⟩
  | pause how resume ih => exact ih htask
  | abort resume ih => exact ih htask
  | limited limit part resume _ ih => exact ⟨htask.1, fun result => ih result (htask.2 result)⟩

/-- A run leaves the world as the invariant says, however it ends. -/
theorem Keeps.run (htask : task.Keeps invariant) (deadlines : List Nat) (clock : Clock)
    {world : W} (hworld : invariant world) :
    invariant (task.run deadlines clock world).2.2 := by
  induction task generalizing deadlines clock world with
  | done ctx => exact hworld
  | act update resume ih =>
      obtain ⟨hupdated, hresume⟩ := htask world hworld
      exact ih _ hresume deadlines clock hupdated
  | pause how resume ih =>
      simp only [Task.run]
      cases clock.wait deadlines how with
      | ok later => exact ih htask deadlines later hworld
      | error stop => exact hworld
  | abort resume ih => exact ih htask deadlines _ hworld
  | limited limit part resume ihPart ihResume =>
      -- However the part ends, what it has done so far has kept the world as it should be.
      have hpart := ihPart htask.1 ((clock.now + limit.nanoseconds) :: deadlines) clock hworld
      simp only [Task.run]
      generalize part.run _ clock world = ran at hpart ⊢
      obtain ⟨ending, later, after⟩ := ran
      cases ending with
      | finished ctx => exact ihResume (some ctx) (htask.2 _) deadlines later hpart
      | interrupted stop =>
          cases stop with
          | cancelled => exact hpart
          | expired number =>
              cases number with
              | zero => exact ihResume none (htask.2 _) deadlines later hpart
              | succ number => exact hpart

end Task

/-- All notices that have been given are as `P` says. -/
def Observed.Records (P : Notice E → Prop) (o : Observed E W) : Prop :=
  ∀ notice ∈ o.notices, P notice

section Records

variable {P : Notice E → Prop}

/-- Giving a notice keeps the record in order if the notice is. -/
theorem Monitor.records_observed (monitor : Monitor E W) {notice : Notice E}
    (hnotice : P notice) {o : Observed E W} (hrecord : o.Records P) :
    (monitor.observed notice o).Records P :=
  List.forall_mem_append.mpr ⟨hrecord, by simpa using hnotice⟩

theorem Task.keeps_notice (monitor : Monitor E W) {notice : Notice E} (hnotice : P notice)
    {task : Task E (Observed E W)} (htask : task.Keeps (Observed.Records P)) :
    (Task.doing (monitor.observed notice) task).Keeps (Observed.Records P) :=
  fun _ hrecord => ⟨monitor.records_observed hnotice hrecord, htask⟩

/-- A plan gives no notices of its own. -/
theorem Plan.task_keeps {next succeed : Context E → Task E (Observed E W)}
    {failed : Failure → Task E (Observed E W)}
    (hnext : ∀ ctx, (next ctx).Keeps (Observed.Records P))
    (hsucceed : ∀ ctx, (succeed ctx).Keeps (Observed.Records P))
    (hfailed : ∀ failure, (failed failure).Keeps (Observed.Records P)) (plan : Plan E W) :
    (plan.observed.task next succeed failed).Keeps (Observed.Records P) := by
  induction plan with
  | done ctx => exact hsucceed ctx
  | fail failure => exact hfailed failure
  | panic payload => exact hfailed payload.failure
  | next ctx resume ih => exact (hnext ctx).bind ih
  | act update resume ih => exact fun o hrecord => ⟨hrecord, ih _⟩
  | pause how resume ih => exact ih
  | abort resume ih => exact ih
  | limited limit ctx resume ih => exact ⟨hnext ctx, ih⟩

namespace Suspending

variable (monitor : Monitor E W)
  (hother : ∀ notice : Notice E, notice.call? = none → P notice)

include hother

theorem invoke_keeps {address : Address} {ctx : Context E} (hcalled : P (.called address ctx))
    (callback : Callback E W) {next succeed failed : Context E → Task E (Observed E W)}
    (hnext : ∀ ctx, (next ctx).Keeps (Observed.Records P))
    (hsucceed : ∀ ctx, (succeed ctx).Keeps (Observed.Records P))
    (hfailed : ∀ ctx, (failed ctx).Keeps (Observed.Records P)) :
    (invoke monitor.observed address (fun ctx => (callback ctx).observed) next succeed failed
      ctx).Keeps (Observed.Records P) := by
  refine Task.keeps_notice monitor hcalled (Plan.task_keeps hnext ?_ ?_ (callback ctx))
  · intro result
    exact Task.keeps_notice monitor (hother _ rfl) (hsucceed result)
  · intro failure
    exact Task.keeps_notice monitor (hother _ rfl) (hfailed _)

variable [Routable E]

/-- What holds of the calls that a handler makes holds of all notices of its task. -/
theorem process_keeps {h : Handler E W} {address : Address} {ctx : Context E}
    (hcalled : ∀ middle, (h.opens → middle = ctx) → P (.called address middle))
    (hinside : ∀ ctx, (walk monitor.observed (Handler.observedAll h.inside) address 0 ctx).Keeps
      (Observed.Records P))
    {next : Context E → Task E (Observed E W)}
    (hnext : ∀ ctx, (next ctx).Keeps (Observed.Records P)) :
    (process monitor.observed h.observed address next ctx).Keeps (Observed.Records P) := by
  have hdone (result : Context E) :
      (Task.done result : Task E (Observed E W)).Keeps (Observed.Records P) := trivial
  cases h with
  | on p callback =>
      exact invoke_keeps monitor hother (hcalled ctx fun _ => rfl) callback hnext hnext hnext
  | after p callback =>
      apply (hnext ctx).bind
      intro middle
      exact invoke_keeps monitor hother (hcalled middle nofun) callback hnext hdone hdone
  | filter p callback =>
      exact invoke_keeps monitor hother (hcalled ctx fun _ => rfl) callback hnext hdone hnext
  | recover p accepts callback clears =>
      apply (hnext ctx).bind
      intro middle
      by_cases haccepts : middle.exception.any accepts
      · simp only [haccepts, if_true]
        exact invoke_keeps monitor hother (hcalled middle nofun) callback hnext
          (fun _ => hdone _) hdone
      · simp only [haccepts]
        exact hdone middle
  | group p handlers => exact (hinside ctx.enter).bind fun _ => hnext _

/-- What holds of every call for which a route or a filter has been selected, and of every
call of the other handlers, holds of all notices of the task of a chain. -/
theorem walk_keeps {handlers : List (Handler E W)} {address : Address} {index : Nat}
    (hcalled : ∀ a h ctx, (a, h) ∈ listing (fun _ => true) handlers address index →
      (h.opens → ctx.SelectedFor h) → P (.called a ctx))
    (ctx : Context E) :
    (walk monitor.observed (Handler.observedAll handlers) address index ctx).Keeps
      (Observed.Records P) := by
  induction handlers using Handler.chainInduction generalizing address index ctx with
  | nil =>
      simp only [Handler.observedAll, walk]
      trivial
  | cons h rest ihInside ihRest =>
      have hrest (ctx : Context E) :
          (walk monitor.observed (Handler.observedAll rest) address (index + 1) ctx).Keeps
            (Observed.Records P) :=
        ihRest (fun a later ctx hmem =>
          hcalled a later ctx (mem_listing_cons.mpr (.inr hmem))) ctx
      simp only [Handler.observedAll, walk, Context.goesInto_observed, Handler.predicate_observed]
      by_cases hattached : ctx.position.attached
      · by_cases hinto : ctx.goesInto index h
        · simp only [hattached, hinto, if_true]
          refine Task.keeps_notice monitor (hother _ rfl) (Task.Keeps.bind ?_ fun _ => ?_)
          · refine process_keeps monitor hother (fun middle hmiddle => ?_)
              (fun ctx => ihInside (fun a inner ctx hmem => ?_) ctx) hrest
            · apply hcalled _ h _ (mem_listing_cons.mpr (.inl ⟨rfl, .inl ⟨rfl, rfl⟩⟩))
              exact fun hopens => ⟨ctx, index, hinto, hmiddle hopens⟩
            · exact hcalled a inner ctx (mem_listing_cons.mpr (.inl ⟨rfl, .inr hmem⟩))
          · exact Task.keeps_notice monitor (hother _ rfl) trivial
        · simp only [hattached, hinto]
          exact hrest ctx
      · simp only [hattached]
        trivial

end Suspending

end Records

/-! ## Dispatches -/

namespace Dispatcher

variable [Routable E] (d : Dispatcher E W) (monitor : Monitor E W) (event : E)
  (attributes : Attributes)

/-- What holds of every call for which a route or a filter has been selected, and of every
call of the other handlers, holds of all notices of a dispatch, with either engine. -/
theorem forall_notices {P : Notice E → Prop}
    (hother : ∀ notice : Notice E, notice.call? = none → P notice)
    (hcalled : ∀ a h ctx, (a, h) ∈ listing (fun _ => true) [d.root] [] 0 →
      (h.opens → ctx.SelectedFor h) → P (.called a ctx)) :
    (∀ world, ∀ notice ∈ d.notices monitor event attributes world, P notice) ∧
      ∀ clock world, ∀ notice ∈ d.suspendingNotices monitor event attributes clock world,
        P notice := by
  constructor
  · intro world
    obtain ⟨seen, hwalk, hnotices⟩ := d.walks_notices monitor event attributes world
    rw [hnotices]
    exact List.forall_mem_cons.mpr ⟨hother _ rfl, hwalk.forall_notices hother hcalled⟩
  · intro clock world
    have htask : (d.observed.task monitor.observed event attributes).Keeps
        (Observed.Records P) :=
      Task.keeps_notice monitor (hother _ rfl)
        (Suspending.walk_keeps monitor hother hcalled (startContext event attributes))
    have hempty : (⟨world, []⟩ : Observed E W).Records P := by
      simp [Observed.Records]
    exact htask.run [] clock hempty

end Dispatcher

/-! ## Fresh requests -/

/-- The request has not been answered, no failure is recorded, and the predicate accepts
the event. -/
structure Context.FreshFor [Routable E] (ctx : Context E) (p : Predicate E) : Prop where
  unanswered : ctx.handled = false
  sound : ctx.exception = none
  accepted : p.accepts ctx.event = true

/-- A route is selected for fresh requests only. -/
theorem Context.SelectedFor.freshFor [Routable E] {ctx : Context E} {p : Predicate E}
    {callback : Callback E W} (hselected : ctx.SelectedFor (Handler.on p callback)) :
    ctx.FreshFor p := by
  obtain ⟨start, index, hinto, rfl⟩ := hselected
  simp only [Context.goesInto, Handler.isTerminal, Handler.runsOnFailure, Handler.predicate,
    Bool.not_true, Bool.and_false, Bool.or_false, Bool.and_eq_true, Bool.not_eq_true',
    decide_eq_true_eq, Option.isNone_iff_eq_none] at hinto
  obtain ⟨⟨⟨_, hunanswered⟩, hsound⟩, haccepted⟩ := hinto
  exact ⟨hunanswered, hsound, haccepted⟩

namespace Dispatcher

variable [Routable E] (d : Dispatcher E W) (monitor : Monitor E W) (event : E)
  (attributes : Attributes)

/-- Whatever callbacks do, and whichever engine carries out the dispatch, for as long as its
clock lets it: each call of a route gets a fresh request that the predicate of the route
accepts. -/
theorem routes_get_fresh_requests {route : Address} {p : Predicate E}
    {callback : Callback E W}
    (hroute : (route, Handler.on p callback) ∈ listing (fun _ => true) [d.root] [] 0) :
    (∀ world ctx, .called route ctx ∈ d.notices monitor event attributes world →
        ctx.FreshFor p) ∧
      ∀ clock world ctx,
        .called route ctx ∈ d.suspendingNotices monitor event attributes clock world →
        ctx.FreshFor p := by
  have hrules := d.forall_notices monitor event attributes
    (P := fun notice => ∀ ctx, notice = .called route ctx → ctx.FreshFor p) ?_ ?_
  · exact ⟨fun world ctx hcalled => hrules.1 world _ hcalled ctx rfl,
      fun clock world ctx hcalled => hrules.2 clock world _ hcalled ctx rfl⟩
  · rintro _ hnone ctx rfl
    cases hnone
  · rintro a h _ hlisted hselected ctx hcalled
    cases hcalled
    cases eq_of_mem_listing hlisted hroute
    exact (hselected rfl).freshFor

/-- A filter that runs the rest of its chain with a failure, then with an answer, and then
for another path, and a route for that path. -/
def thirdTry : Dispatcher TextEvent Unit :=
  ⟨.group Predicate.any
    [.filter Predicate.any fun ctx =>
        .next (ctx.withException (.text "first")) fun _ =>
          .next (ctx.withHandled true) fun _ => .next (ctx.withEvent ⟨"/b"⟩) .done,
      .on ⟨.literal ⟨"/b", .whole⟩, none⟩ Plan.unchanged]⟩

/-- The context that goes into the route of `thirdTry`. -/
def thirdTryContext : Context TextEvent where
  event := ⟨"/b"⟩
  predicate := ⟨.literal ⟨"/b", .whole⟩, none⟩
  attributes := Attributes.empty
  exception := none
  handled := false
  position := ⟨true, 2, false⟩

/-- Of the three requests that the filter of `thirdTry` makes, the fresh one gets to the
route. -/
theorem thirdTry_route_gets_fresh_request :
    (.called [0, 1] thirdTryContext ∈
        thirdTry.notices Monitor.silent ⟨"/a"⟩ Attributes.empty () ∧
      .called [0, 1] thirdTryContext ∈
        thirdTry.suspendingNotices Monitor.silent ⟨"/a"⟩ Attributes.empty {} ()) ∧
      thirdTryContext.FreshFor ⟨.literal ⟨"/b", .whole⟩, none⟩ := by
  have hblocking : .called [0, 1] thirdTryContext ∈
      thirdTry.notices Monitor.silent ⟨"/a"⟩ Attributes.empty () :=
    List.mem_of_getElem? (i := 5) rfl
  have hsuspending : .called [0, 1] thirdTryContext ∈
      thirdTry.suspendingNotices Monitor.silent ⟨"/a"⟩ Attributes.empty {} () :=
    List.mem_of_getElem? (i := 5) rfl
  have hroute : ([0, 1], Handler.on ⟨.literal ⟨"/b", .whole⟩, none⟩ Plan.unchanged) ∈
      listing (fun _ => true) [thirdTry.root] [] 0 := by
    simp [thirdTry, Handler.mem_listing_cons, Handler.inside]
  obtain ⟨hfresh, _⟩ :=
    thirdTry.routes_get_fresh_requests Monitor.silent ⟨"/a"⟩ Attributes.empty hroute
  exact ⟨⟨hblocking, hsuspending⟩, hfresh () thirdTryContext hblocking⟩

end Dispatcher

end RequestRouting
