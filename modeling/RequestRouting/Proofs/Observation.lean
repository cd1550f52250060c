import RequestRouting.Dispatch.Dispatcher
import RequestRouting.Proofs.Chain

/-!
# Observed dispatches

A dispatch is observed by keeping the notices that it gives beside its world. Handlers
cannot see the record, so a dispatch runs the same with it and without it. The list of
notices of a dispatch, `Dispatcher.notices` for the blocking engine and
`Dispatcher.suspendingNotices` for the suspending one, is what statements about "the
callbacks that are called" speak of.
-/

namespace RequestRouting

variable {E W : Type}

/-- The plan in an observed world. It sees the world without the record. -/
def Plan.observed : Plan E W → Plan E (Observed E W)
  | done ctx => done ctx
  | fail failure => fail failure
  | panic payload => panic payload
  | next ctx resume => next ctx fun result => (resume result).observed
  | act update resume => act (Observed.change update) fun o => (resume o.world).observed
  | pause how resume => pause how resume.observed
  | abort resume => abort resume.observed
  | limited limit ctx resume => limited limit ctx fun result => (resume result).observed

namespace Handler

mutual

/-- The handler in an observed world. -/
def observed : Handler E W → Handler E (Observed E W)
  | on p callback => on p fun ctx => (callback ctx).observed
  | after p callback => after p fun ctx => (callback ctx).observed
  | filter p callback => filter p fun ctx => (callback ctx).observed
  | recover p accepts callback clears =>
      recover p accepts (fun ctx => (callback ctx).observed) clears
  | group p handlers => group p (observedAll handlers)

/-- The handlers of a chain in an observed world. -/
def observedAll : List (Handler E W) → List (Handler E (Observed E W))
  | [] => []
  | h :: rest => observed h :: observedAll rest

end

@[simp]
theorem predicate_observed (h : Handler E W) : h.observed.predicate = h.predicate := by
  cases h <;> rfl

@[simp]
theorem isTerminal_observed (h : Handler E W) : h.observed.isTerminal = h.isTerminal := by
  cases h <;> rfl

@[simp]
theorem inside_observed (h : Handler E W) : h.observed.inside = observedAll h.inside := by
  cases h <;> rfl

/-- What holds of the handlers of a chain holds of them when they are observed, if it does of
each of them. -/
theorem Throughout.observedAll {condition : Handler E W → Prop}
    {observedCondition : Handler E (Observed E W) → Prop}
    (himp : ∀ h, condition h → observedCondition h.observed) {handlers : List (Handler E W)}
    (hall : Throughout (fun h _ => condition h) handlers) :
    Throughout (fun h _ => observedCondition h) (Handler.observedAll handlers) := by
  induction handlers using chainInduction with
  | nil => exact throughout_nil
  | cons h rest ihInside ihRest =>
      obtain ⟨hhere, hinside, hrest⟩ := throughout_cons.mp hall
      rw [Handler.observedAll, throughout_cons, inside_observed]
      exact ⟨himp h hhere, ihInside hinside, ihRest hrest⟩

end Handler

/-- A context goes into an observed handler whenever it goes into the handler. -/
@[simp]
theorem Context.goesInto_observed [Routable E] (ctx : Context E) (index : Nat)
    (h : Handler E W) : ctx.goesInto index h.observed = ctx.goesInto index h := by
  simp [Context.goesInto, Handler.runsOnFailure]

namespace Dispatcher

variable [Routable E] (d : Dispatcher E W) (monitor : Monitor E W) (event : E)
  (attributes : Attributes)

/-- The dispatcher in an observed world. -/
def observed : Dispatcher E (Observed E W) := ⟨d.root.observed⟩

/-- The notices of a dispatch with the blocking engine, oldest first. -/
def notices (world : W) : List (Notice E) :=
  (d.observed.process monitor.observed event attributes ⟨world, []⟩).2.notices

/-- The notices of a dispatch with the suspending engine, oldest first. -/
def suspendingNotices (clock : Clock) (world : W) : List (Notice E) :=
  (d.observed.processSuspending monitor.observed event attributes clock
    ⟨world, []⟩).2.notices

end Dispatcher

/-! ## Observing the suspending engine -/

namespace Task

/-- The first task is the second one in an observed world. -/
inductive Mirrors : Task E (Observed E W) → Task E W → Prop
  | done (ctx : Context E) : Mirrors (done ctx) (done ctx)
  | act {recorded : Observed E W → Observed E W} {update : W → W}
      {observedResume : Observed E W → Task E (Observed E W)} {resume : W → Task E W}
      (hworld : ∀ o, (recorded o).world = update o.world)
      (hresume : ∀ o, Mirrors (observedResume o) (resume o.world)) :
      Mirrors (act recorded observedResume) (act update resume)
  | pause (how : Pause) {observedResume : Task E (Observed E W)} {resume : Task E W}
      (hresume : Mirrors observedResume resume) :
      Mirrors (pause how observedResume) (pause how resume)
  | abort {observedResume : Task E (Observed E W)} {resume : Task E W}
      (hresume : Mirrors observedResume resume) :
      Mirrors (abort observedResume) (abort resume)
  | limited (limit : Duration) {observedPart : Task E (Observed E W)} {part : Task E W}
      {observedResume : Option (Context E) → Task E (Observed E W)}
      {resume : Option (Context E) → Task E W} (hpart : Mirrors observedPart part)
      (hresume : ∀ result, Mirrors (observedResume result) (resume result)) :
      Mirrors (limited limit observedPart observedResume) (limited limit part resume)

namespace Mirrors

theorem doing {recorded : Observed E W → Observed E W} {update : W → W}
    {observedTask : Task E (Observed E W)} {task : Task E W}
    (hworld : ∀ o, (recorded o).world = update o.world) (htask : Mirrors observedTask task) :
    Mirrors (Task.doing recorded observedTask) (Task.doing update task) :=
  act hworld fun _ => htask

theorem bind {observedTask : Task E (Observed E W)} {task : Task E W}
    {observedOnward : Context E → Task E (Observed E W)} {onward : Context E → Task E W}
    (htask : Mirrors observedTask task)
    (honward : ∀ ctx, Mirrors (observedOnward ctx) (onward ctx)) :
    Mirrors (observedTask.bind observedOnward) (task.bind onward) := by
  induction htask with
  | done ctx => exact honward ctx
  | act hworld _ ih => exact act hworld ih
  | pause how _ ih => exact pause how ih
  | abort _ ih => exact abort ih
  | limited limit hpart _ _ ihResume => exact limited limit hpart ihResume

/-- A mirrored task ends as the task does, at the same time and in the same world. -/
theorem run_eq {observedTask : Task E (Observed E W)} {task : Task E W}
    (hmirrors : Mirrors observedTask task) (deadlines : List Nat) (clock : Clock)
    (o : Observed E W) :
    (observedTask.run deadlines clock o).1 = (task.run deadlines clock o.world).1 ∧
      (observedTask.run deadlines clock o).2.1 = (task.run deadlines clock o.world).2.1 ∧
      (observedTask.run deadlines clock o).2.2.world =
        (task.run deadlines clock o.world).2.2 := by
  induction hmirrors generalizing deadlines clock o with
  | done ctx => exact ⟨rfl, rfl, rfl⟩
  | @act recorded update observedResume resume hworld _ ih =>
      have hnext := ih (recorded o) deadlines clock (recorded o)
      rw [hworld o] at hnext
      exact hnext
  | pause how _ ih =>
      simp only [run]
      cases clock.wait deadlines how with
      | ok later => exact ih deadlines later o
      | error stop => exact ⟨rfl, rfl, rfl⟩
  | abort _ ih => exact ih deadlines _ o
  | @limited limit observedPart part observedResume resume _ _ ihPart ihResume =>
      obtain ⟨hending, hclock, hworld⟩ :=
        ihPart ((clock.now + limit.nanoseconds) :: deadlines) clock o
      simp only [run]
      generalize observedPart.run _ clock o = recorded at hending hclock hworld ⊢
      generalize part.run _ clock o.world = plain at hending hclock hworld ⊢
      obtain ⟨ending, later, after⟩ := recorded
      obtain ⟨_, _, _⟩ := plain
      subst hending hclock hworld
      match ending with
      | .finished ctx => exact ihResume (some ctx) deadlines later after
      | .interrupted (.expired 0) => exact ihResume none deadlines later after
      | .interrupted (.expired (number + 1)) => exact ⟨rfl, rfl, rfl⟩
      | .interrupted .cancelled => exact ⟨rfl, rfl, rfl⟩

end Mirrors

end Task

/-- The task of an observed plan mirrors the task of the plan. -/
theorem Plan.task_mirrors {observedNext : Context E → Task E (Observed E W)}
    {next : Context E → Task E W} (hnext : ∀ ctx, (observedNext ctx).Mirrors (next ctx))
    {observedSucceed : Context E → Task E (Observed E W)} {succeed : Context E → Task E W}
    (hsucceed : ∀ ctx, (observedSucceed ctx).Mirrors (succeed ctx))
    {observedFailed : Failure → Task E (Observed E W)} {failed : Failure → Task E W}
    (hfailed : ∀ failure, (observedFailed failure).Mirrors (failed failure))
    (plan : Plan E W) :
    (plan.observed.task observedNext observedSucceed observedFailed).Mirrors
      (plan.task next succeed failed) := by
  induction plan with
  | done ctx => exact hsucceed ctx
  | fail failure => exact hfailed failure
  | panic payload => exact hfailed payload.failure
  | next ctx resume ih => exact (hnext ctx).bind ih
  | act update resume ih => exact .act (fun _ => rfl) fun o => ih o.world
  | pause how resume ih => exact .pause how ih
  | abort resume ih => exact .abort ih
  | limited limit ctx resume ih => exact .limited limit (hnext ctx) ih

namespace Suspending

variable (monitor : Monitor E W)

/-- The task of an observed callback mirrors the task of the callback. -/
theorem invoke_mirrors {observedNext : Context E → Task E (Observed E W)}
    {next : Context E → Task E W} (hnext : ∀ ctx, (observedNext ctx).Mirrors (next ctx))
    {observedSucceed observedFailed : Context E → Task E (Observed E W)}
    {succeed failed : Context E → Task E W}
    (hsucceed : ∀ ctx, (observedSucceed ctx).Mirrors (succeed ctx))
    (hfailed : ∀ ctx, (observedFailed ctx).Mirrors (failed ctx))
    (address : Address) (callback : Callback E W) (ctx : Context E) :
    (invoke monitor.observed address (fun ctx => (callback ctx).observed) observedNext
        observedSucceed observedFailed ctx).Mirrors
      (invoke monitor address callback next succeed failed ctx) := by
  refine .doing (fun _ => rfl) (Plan.task_mirrors hnext ?_ ?_ (callback ctx))
  · intro result
    exact .doing (fun _ => rfl) (hsucceed result)
  · intro failure
    exact .doing (fun _ => rfl) (hfailed _)

variable [Routable E]

/-- The task of an observed handler mirrors the task of the handler, where the same
holds of the rest of its chain and of the chain inside it. -/
theorem process_mirrors (h : Handler E W) (address : Address)
    (hinside : ∀ ctx,
      (walk monitor.observed (Handler.observedAll h.inside) address 0 ctx).Mirrors
        (walk monitor h.inside address 0 ctx))
    {observedNext : Context E → Task E (Observed E W)} {next : Context E → Task E W}
    (hnext : ∀ ctx, (observedNext ctx).Mirrors (next ctx)) (ctx : Context E) :
    (process monitor.observed h.observed address observedNext ctx).Mirrors
      (process monitor h address next ctx) := by
  cases h with
  | on p callback => exact invoke_mirrors monitor hnext hnext hnext address callback ctx
  | after p callback =>
      exact (hnext ctx).bind
        (invoke_mirrors monitor hnext .done .done address callback)
  | filter p callback => exact invoke_mirrors monitor hnext .done hnext address callback ctx
  | recover p accepts callback clears =>
      apply (hnext ctx).bind
      intro result
      by_cases haccepts : result.exception.any accepts
      · simp only [haccepts, if_true]
        exact invoke_mirrors monitor hnext (fun _ => .done _) .done address callback result
      · simp only [haccepts]
        exact .done result
  | group p handlers => exact (hinside ctx.enter).bind fun _ => hnext _

/-- The task of an observed chain mirrors the task of the chain. -/
theorem walk_mirrors (handlers : List (Handler E W)) (address : Address) (index : Nat)
    (ctx : Context E) :
    (walk monitor.observed (Handler.observedAll handlers) address index ctx).Mirrors
      (walk monitor handlers address index ctx) := by
  induction handlers using Handler.chainInduction generalizing address index ctx with
  | nil =>
      simp only [Handler.observedAll, walk]
      exact .done _
  | cons h rest ihInside ihRest =>
      simp only [Handler.observedAll, walk, Context.goesInto_observed,
        Handler.predicate_observed]
      split
      · split
        · refine .doing (fun _ => rfl) (.bind ?_ fun _ => .doing (fun _ => rfl) (.done _))
          exact process_mirrors monitor h _ (ihInside _ 0) (ihRest address (index + 1)) _
        · exact ihRest address (index + 1) ctx
      · exact .done ctx

end Suspending

namespace Dispatcher

variable [Routable E] (d : Dispatcher E W) (monitor : Monitor E W) (event : E)
  (attributes : Attributes)

/-- The task of an observed dispatch mirrors the task of the dispatch. -/
theorem task_mirrors :
    (d.observed.task monitor.observed event attributes).Mirrors
      (d.task monitor event attributes) :=
  .doing (fun _ => rfl) (Suspending.walk_mirrors monitor [d.root] [] 0 _)

end Dispatcher

end RequestRouting
