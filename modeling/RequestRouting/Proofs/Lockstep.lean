import RequestRouting.Proofs.Outline
import RequestRouting.TextEvent

/-!
# The engines in lockstep

The suspending engine does what the blocking engine does, however often its callbacks
wait: step by step it leads to the state that the blocking engine reaches, as long as no
limit of time passes and the run cannot be aborted. So trees of handlers with the same
outline are dispatched alike, the one by the blocking engine and the other by the
suspending one.
-/

namespace RequestRouting

variable {E W : Type}

/-! ## Runs that keep to their limits -/

namespace Task

theorem bind_done (task : Task E W) : task.bind done = task := by
  induction task with
  | done ctx => rfl
  | act update resume ih => exact congrArg (act update) (funext ih)
  | pause how resume ih => exact congrArg (pause how) ih
  | abort resume ih => exact congrArg abort ih
  | limited limit part resume _ ih => exact congrArg (limited limit part) (funext ih)

theorem bind_assoc (task : Task E W) (first second : Context E → Task E W) :
    (task.bind first).bind second = task.bind fun ctx => (first ctx).bind second := by
  induction task with
  | done ctx => rfl
  | act update resume ih => exact congrArg (act update) (funext ih)
  | pause how resume ih => exact congrArg (pause how) ih
  | abort resume ih => exact congrArg abort ih
  | limited limit part resume _ ih => exact congrArg (limited limit part) (funext ih)

/-- No limit of time passes while the task runs. -/
def InTime (deadlines : List Nat) : Task E W → Clock → W → Prop
  | done _, _, _ => True
  | act update resume, clock, world =>
      (resume (update world)).InTime deadlines clock (update world)
  | pause how resume, clock, world =>
      match clock.wait deadlines how with
      | .ok later => resume.InTime deadlines later world
      | .error (.expired _, _) => False
      | .error (.cancelled, _) => True
  | abort resume, clock, world =>
      resume.InTime deadlines { clock with aborted := clock.aborted || clock.abortable } world
  | limited limit part resume, clock, world =>
      part.InTime ((clock.now + limit.nanoseconds) :: deadlines) clock world ∧
        match part.run ((clock.now + limit.nanoseconds) :: deadlines) clock world with
        | (.finished ctx, later, after) => (resume (some ctx)).InTime deadlines later after
        | (.interrupted _, _, _) => True

/-- A mirrored task keeps to its limits when the task does. -/
theorem Mirrors.inTime {observedTask : Task E (Observed E W)} {task : Task E W}
    (hmirrors : Mirrors observedTask task) {deadlines : List Nat} {clock : Clock}
    {o : Observed E W} (hintime : task.InTime deadlines clock o.world) :
    observedTask.InTime deadlines clock o := by
  induction hmirrors generalizing deadlines clock o with
  | done ctx => trivial
  | @act recorded update observedResume resume hworld _ ih =>
      apply ih (recorded o)
      rw [hworld o]
      exact hintime
  | pause how _ ih =>
      simp only [InTime] at hintime ⊢
      generalize clock.wait deadlines how = waited at hintime ⊢
      match waited with
      | .ok later => exact ih hintime
      | .error (.cancelled, _) => trivial
  | abort _ ih => exact ih hintime
  | @limited limit observedPart part observedResume resume hpart _ ihPart ihResume =>
      simp only [InTime] at hintime ⊢
      obtain ⟨hpartInTime, hresumeInTime⟩ := hintime
      refine ⟨ihPart hpartInTime, ?_⟩
      obtain ⟨hending, hclock, hworld⟩ :=
        hpart.run_eq ((clock.now + limit.nanoseconds) :: deadlines) clock o
      generalize observedPart.run _ clock o = recorded at hending hclock hworld ⊢
      generalize part.run _ clock o.world = plain at hending hclock hworld hresumeInTime
      obtain ⟨ending, later, after⟩ := recorded
      obtain ⟨_, _, _⟩ := plain
      subst hending hclock hworld
      cases ending with
      | finished ctx => exact ihResume (some ctx) hresumeInTime
      | interrupted cause => trivial

end Task

/-! ## From one state of a run to another -/

namespace Clock

/-- Waiting moves the clock on and changes nothing else of it. -/
theorem flags_of_wait {clock later : Clock} {deadlines : List Nat} {how : Pause}
    (hwait : clock.wait deadlines how = .ok later) :
    later.abortable = clock.abortable ∧ later.aborted = clock.aborted := by
  unfold wait at hwait
  grind

/-- Only a run that has been aborted is cancelled at a stop. -/
theorem aborted_of_wait_cancelled {clock later : Clock} {deadlines : List Nat} {how : Pause}
    (hwait : clock.wait deadlines how = .error (.cancelled, later)) :
    clock.aborted = true := by
  unfold wait at hwait
  grind

/-- Without limits none can pass. -/
theorem wait_nil_ne_expired {clock later : Clock} {how : Pause} {number : Nat}
    (hwait : clock.wait [] how = .error (.expired number, later)) : False := by
  unfold wait passed? earliest? at hwait
  grind

end Clock

namespace Task

/-- Whenever the first task is run from the first world, keeps to its limits and cannot be
aborted, the run comes to the second task in the second world, under the same
conditions. -/
def Leads (task : Task E W) (world : W) (later : Task E W) (after : W) : Prop :=
  ∀ (deadlines : List Nat) (clock : Clock), clock.abortable = false →
    clock.aborted = false → task.InTime deadlines clock world →
    ∃ reached : Clock, reached.abortable = false ∧ reached.aborted = false ∧
      later.InTime deadlines reached after ∧
      task.run deadlines clock world = later.run deadlines reached after

namespace Leads

theorem refl (task : Task E W) (world : W) : Leads task world task world :=
  fun _ clock habortable haborted hintime =>
    ⟨clock, habortable, haborted, hintime, rfl⟩

theorem trans {first second third : Task E W} {world middle after : W}
    (hfirst : Leads first world second middle) (hsecond : Leads second middle third after) :
    Leads first world third after := by
  intro deadlines clock habortable haborted hintime
  obtain ⟨reached, habortable, haborted, hintime, hrun⟩ :=
    hfirst deadlines clock habortable haborted hintime
  rw [hrun]
  exact hsecond deadlines reached habortable haborted hintime

theorem act (update : W → W) (resume : W → Task E W) (world : W) :
    Leads (.act update resume) world (resume (update world)) (update world) :=
  fun _ clock habortable haborted hintime =>
    ⟨clock, habortable, haborted, hintime, rfl⟩

theorem doing (update : W → W) (task : Task E W) (world : W) :
    Leads (.doing update task) world task (update world) :=
  act update (fun _ => task) world

theorem abort (task : Task E W) (world : W) : Leads (.abort task) world task world := by
  intro deadlines clock habortable haborted hintime
  refine ⟨{ clock with aborted := clock.aborted || clock.abortable }, habortable, ?_,
    hintime, rfl⟩
  simp [habortable, haborted]

/-- A run that keeps to its limits and cannot be aborted gets over every stop. -/
theorem pause (how : Pause) (task : Task E W) (world : W) :
    Leads (.pause how task) world task world := by
  intro deadlines clock habortable haborted hintime
  simp only [InTime, run] at hintime ⊢
  cases hwait : clock.wait deadlines how with
  | ok later =>
      rw [hwait] at hintime
      obtain ⟨hsame, hcleared⟩ := Clock.flags_of_wait hwait
      exact ⟨later, hsame.trans habortable, hcleared.trans haborted, hintime, rfl⟩
  | error stop =>
      obtain ⟨cause, later⟩ := stop
      rw [hwait] at hintime
      cases cause with
      | expired number => exact hintime.elim
      | cancelled =>
          have habortedNow := Clock.aborted_of_wait_cancelled hwait
          rw [haborted] at habortedNow
          contradiction

/-- A part that comes to its end in time is as good as its result. -/
theorem limited (limit : Duration) {part : Task E W} {ctx : Context E} {world after : W}
    (hpart : Leads part world (.done ctx) after)
    (resume : Option (Context E) → Task E W) :
    Leads (.limited limit part resume) world (resume (some ctx)) after := by
  intro deadlines clock habortable haborted hintime
  simp only [InTime, run] at hintime ⊢
  obtain ⟨hpartInTime, hresume⟩ := hintime
  obtain ⟨reached, habortable, haborted, _, hrun⟩ :=
    hpart _ clock habortable haborted hpartInTime
  rw [hrun] at hresume ⊢
  exact ⟨reached, habortable, haborted, hresume, rfl⟩

end Leads

end Task

/-! ## The suspending engine keeps up with the blocking one -/

/-- Tasks for the rest of a chain that lead to what a walk gives, whatever comes after. -/
def Suspending.KeepsUp (tasks : Context E → Task E W)
    (next : Context E → W → Context E × W) : Prop :=
  ∀ ctx world (onward : Context E → Task E W),
    ((tasks ctx).bind onward).Leads world (onward (next ctx world).1) (next ctx world).2

namespace Plan

/-- What comes after a plan can be moved behind its two ways to end. -/
theorem task_bind (next succeed : Context E → Task E W) (failed : Failure → Task E W)
    (onward : Context E → Task E W) (plan : Plan E W) :
    (plan.task next succeed failed).bind onward =
      plan.task next (fun ctx => (succeed ctx).bind onward)
        (fun failure => (failed failure).bind onward) := by
  induction plan with
  | done ctx => rfl
  | fail failure => rfl
  | panic payload => rfl
  | next ctx resume ih =>
      simp only [task, Task.bind_assoc]
      exact congrArg _ (funext ih)
  | act update resume ih => exact congrArg (Task.act update) (funext ih)
  | pause how resume ih => exact congrArg (Task.pause how) ih
  | abort resume ih => exact congrArg Task.abort ih
  | limited limit ctx resume ih => exact congrArg (Task.limited limit _) (funext ih)

/-- The task of a plan leads to the continuation that the outcome of the plan asks for. -/
theorem task_leads {tasks : Context E → Task E W} {next : Context E → W → Context E × W}
    (hnext : Suspending.KeepsUp tasks next) (succeed : Context E → Task E W)
    (failed : Failure → Task E W) (plan : Plan E W) (world : W) :
    (plan.task tasks succeed failed).Leads world
      (match (plan.run next world).1 with
        | .ok ctx => succeed ctx
        | .error failure => failed failure)
      (plan.run next world).2 := by
  induction plan generalizing world with
  | done ctx => exact .refl _ world
  | fail failure => exact .refl _ world
  | panic payload => exact .refl _ world
  | next ctx resume ih => exact (hnext ctx world _).trans (ih _ _)
  | act update resume ih => exact (Task.Leads.act update _ world).trans (ih _ _)
  | pause how resume ih => exact (Task.Leads.pause how _ world).trans (ih world)
  | abort resume ih => exact (Task.Leads.abort _ world).trans (ih world)
  | limited limit ctx resume ih =>
      have hpart := hnext ctx world .done
      rw [Task.bind_done] at hpart
      exact (Task.Leads.limited limit hpart _).trans (ih _ _)

end Plan

namespace Suspending

variable (monitor : Monitor E W)

theorem invoke_bind (address : Address) (callback : Callback E W)
    (next succeed failed onward : Context E → Task E W) (ctx : Context E) :
    (invoke monitor address callback next succeed failed ctx).bind onward =
      invoke monitor address callback next (fun ctx => (succeed ctx).bind onward)
        (fun ctx => (failed ctx).bind onward) ctx := by
  simp only [invoke, Task.doing, Task.bind, Plan.task_bind]

/-- The task of a callback leads to the continuation that its outcome asks for. -/
theorem invoke_leads {tasks : Context E → Task E W} {next : Context E → W → Context E × W}
    (hnext : KeepsUp tasks next) (address : Address) (callback : Callback E W)
    (succeed failed : Context E → Task E W) (ctx : Context E) (world : W) :
    (invoke monitor address callback tasks succeed failed ctx).Leads world
      (match Blocking.invoke monitor address callback next ctx world with
        | (true, result, _) => succeed result
        | (false, result, _) => failed result)
      (Blocking.invoke monitor address callback next ctx world).2.2 := by
  refine (Task.Leads.doing _ _ world).trans ((Plan.task_leads hnext _ _ _ _).trans ?_)
  simp only [Blocking.invoke]
  generalize (callback ctx).run next (monitor (.called address ctx) world) = outcome
  obtain ⟨result, after⟩ := outcome
  cases result with
  | ok result => exact Task.Leads.doing _ _ after
  | error failure => exact Task.Leads.doing _ _ after

variable [Routable E]

/-- The task of a handler keeps up with the handler if the tasks for the rest of its
chain and for the chain inside it do. -/
theorem process_keepsUp (h : Handler E W) (address : Address)
    (hinside : KeepsUp (walk monitor h.inside address 0)
      (Blocking.walk monitor h.inside address 0))
    {tasks : Context E → Task E W} {next : Context E → W → Context E × W}
    (hnext : KeepsUp tasks next) :
    KeepsUp (process monitor h address tasks) (Blocking.process monitor h address next) := by
  intro ctx world onward
  cases h with
  | on p callback =>
      simp only [process, Blocking.process, invoke_bind]
      apply (invoke_leads monitor hnext address callback _ _ ctx world).trans
      obtain ⟨succeeded, result, after⟩ :=
        Blocking.invoke monitor address callback next ctx world
      cases succeeded <;> exact hnext result after onward
  | after p callback =>
      simp only [process, Blocking.process, Task.bind_assoc, invoke_bind]
      apply (hnext ctx world _).trans
      apply (invoke_leads monitor hnext address callback _ _ _ _).trans
      generalize Blocking.invoke monitor address callback next _ _ = outcome
      obtain ⟨succeeded, result, after⟩ := outcome
      cases succeeded <;> exact Task.Leads.refl _ after
  | filter p callback =>
      simp only [process, Blocking.process, invoke_bind]
      apply (invoke_leads monitor hnext address callback _ _ ctx world).trans
      obtain ⟨succeeded, result, after⟩ :=
        Blocking.invoke monitor address callback next ctx world
      cases succeeded with
      | true => exact Task.Leads.refl _ after
      | false => exact hnext result after onward
  | recover p accepts callback clears =>
      simp only [process, Blocking.process, Task.bind_assoc]
      apply (hnext ctx world _).trans
      obtain ⟨left, after⟩ := next ctx world
      by_cases haccepts : left.exception.any accepts
      · simp only [haccepts, if_true, invoke_bind]
        apply (invoke_leads monitor hnext address callback _ _ left after).trans
        obtain ⟨succeeded, result, after⟩ :=
          Blocking.invoke monitor address callback next left after
        cases succeeded <;> exact Task.Leads.refl _ after
      · simp only [haccepts]
        exact Task.Leads.refl _ after
  | group p handlers =>
      simp only [process, Blocking.process, Task.bind_assoc]
      exact (hinside ctx.enter world _).trans (hnext _ _ onward)

/-- The task of a chain keeps up with the walk through the chain. -/
theorem walk_keepsUp (handlers : List (Handler E W)) (address : Address) (index : Nat) :
    KeepsUp (walk monitor handlers address index)
      (Blocking.walk monitor handlers address index) := by
  induction handlers using Handler.chainInduction generalizing address index with
  | nil =>
      intro ctx world onward
      exact Task.Leads.refl _ world
  | cons h rest ihInside ihRest =>
      intro ctx world onward
      simp only [walk, Blocking.walk]
      split
      · split
        · have hprocess :=
            process_keepsUp monitor h (address ++ [index]) (ihInside _ 0)
              (ihRest address (index + 1))
          simp only [Task.doing, Task.bind, Task.bind_assoc]
          refine (Task.Leads.act _ _ world).trans ((hprocess _ _ _).trans ?_)
          exact Task.Leads.act _ _ _
        · exact ihRest address (index + 1) ctx world onward
      · exact Task.Leads.refl _ world

end Suspending

/-! ## Chains without limits -/

/-- The plan sets no limits of time. -/
def Plan.Unlimited : Plan E W → Prop
  | done _ | fail _ | panic _ => True
  | next _ resume => ∀ result, (resume result).Unlimited
  | act _ resume => ∀ world, (resume world).Unlimited
  | pause _ resume | abort resume => resume.Unlimited
  | limited _ _ _ => False

namespace Task

/-- The task sets no limits of time. -/
def Unlimited : Task E W → Prop
  | done _ => True
  | act _ resume => ∀ world, (resume world).Unlimited
  | pause _ resume | abort resume => resume.Unlimited
  | limited _ _ _ => False

theorem Unlimited.bind {task : Task E W} {onward : Context E → Task E W}
    (htask : task.Unlimited) (honward : ∀ ctx, (onward ctx).Unlimited) :
    (task.bind onward).Unlimited := by
  induction task with
  | done ctx => exact honward ctx
  | act update resume ih => exact fun world => ih world (htask world)
  | pause how resume ih => exact ih htask
  | abort resume ih => exact ih htask
  | limited limit part resume _ _ => exact htask.elim

/-- Where no limits are set, none passes. -/
theorem Unlimited.inTime {task : Task E W} (htask : task.Unlimited) (clock : Clock)
    (world : W) : task.InTime [] clock world := by
  induction task generalizing clock world with
  | done ctx => trivial
  | act update resume ih => exact ih _ (htask _) clock _
  | pause how resume ih =>
      simp only [InTime]
      cases hwait : clock.wait [] how with
      | ok later => exact ih htask later world
      | error stop =>
          obtain ⟨cause, later⟩ := stop
          cases cause with
          | expired number => exact (Clock.wait_nil_ne_expired hwait).elim
          | cancelled => trivial
  | abort resume ih => exact ih htask _ world
  | limited limit part resume _ _ => exact htask.elim

end Task

theorem Plan.Unlimited.task {next succeed : Context E → Task E W}
    {failed : Failure → Task E W} (hnext : ∀ ctx, (next ctx).Unlimited)
    (hsucceed : ∀ ctx, (succeed ctx).Unlimited)
    (hfailed : ∀ failure, (failed failure).Unlimited) {plan : Plan E W}
    (hplan : plan.Unlimited) : (plan.task next succeed failed).Unlimited := by
  induction plan with
  | done ctx => exact hsucceed ctx
  | fail failure => exact hfailed failure
  | panic payload => exact hfailed payload.failure
  | next ctx resume ih => exact (hnext ctx).bind fun result => ih result (hplan result)
  | act update resume ih => exact fun world => ih world (hplan world)
  | pause how resume ih => exact ih hplan
  | abort resume ih => exact ih hplan
  | limited limit ctx resume _ => exact hplan.elim

/-- The callback of a handler, if it has one, sets no limits of time. -/
def Handler.Unlimited (h : Handler E W) : Prop :=
  ∀ callback ∈ h.callback?, ∀ ctx, (callback ctx).Unlimited

namespace Suspending

variable (monitor : Monitor E W)

theorem invoke_unlimited (address : Address) {callback : Callback E W}
    (hcallback : ∀ ctx, (callback ctx).Unlimited) {next succeed failed : Context E → Task E W}
    (hnext : ∀ ctx, (next ctx).Unlimited) (hsucceed : ∀ ctx, (succeed ctx).Unlimited)
    (hfailed : ∀ ctx, (failed ctx).Unlimited) (ctx : Context E) :
    (invoke monitor address callback next succeed failed ctx).Unlimited := by
  intro world
  refine Plan.Unlimited.task hnext ?_ ?_ (hcallback ctx)
  · intro result _
    exact hsucceed result
  · intro failure _
    exact hfailed (ctx.withException failure)

variable [Routable E]

theorem process_unlimited {h : Handler E W} (hcallback : h.Unlimited) (address : Address)
    (hinside : ∀ ctx, (walk monitor h.inside address 0 ctx).Unlimited)
    {next : Context E → Task E W} (hnext : ∀ ctx, (next ctx).Unlimited) (ctx : Context E) :
    (process monitor h address next ctx).Unlimited := by
  have hdone (result : Context E) : (Task.done result : Task E W).Unlimited := trivial
  cases h with
  | on p callback =>
      exact invoke_unlimited monitor address (hcallback callback rfl) hnext hnext hnext ctx
  | after p callback =>
      exact (hnext ctx).bind
        (invoke_unlimited monitor address (hcallback callback rfl) hnext hdone hdone)
  | filter p callback =>
      exact invoke_unlimited monitor address (hcallback callback rfl) hnext hdone hnext ctx
  | recover p accepts callback clears =>
      apply (hnext ctx).bind
      intro result
      by_cases haccepts : result.exception.any accepts
      · simp only [haccepts, if_true]
        exact invoke_unlimited monitor address (hcallback callback rfl) hnext
          (fun _ => hdone _) hdone result
      · simp only [haccepts]
        exact hdone result
  | group p handlers => exact (hinside ctx.enter).bind fun _ => hnext _

/-- Where no callback of a chain sets a limit of time, its task sets none. -/
theorem walk_unlimited {handlers : List (Handler E W)}
    (hall : Handler.Throughout (fun h _ => h.Unlimited) handlers) (address : Address)
    (index : Nat) (ctx : Context E) :
    (walk monitor handlers address index ctx).Unlimited := by
  induction handlers using Handler.chainInduction generalizing address index ctx with
  | nil => trivial
  | cons h rest ihInside ihRest =>
      obtain ⟨hhere, hinside, hrest⟩ := Handler.throughout_cons.mp hall
      simp only [walk]
      split
      · split
        · intro world
          refine Task.Unlimited.bind ?_ fun _ _ => trivial
          exact process_unlimited monitor hhere _ (ihInside hinside _ 0)
            (ihRest hrest address (index + 1)) _
        · exact ihRest hrest address (index + 1) ctx
      · trivial

end Suspending

/-! ## Dispatches -/

namespace Dispatcher

variable [Routable E] {d twin : Dispatcher E W} (monitor : Monitor E W) (event : E)
  (attributes : Attributes)

/-- A dispatch of the suspending engine that keeps to its limits and cannot be aborted
ends as it does with the blocking engine. -/
theorem processSuspending_eq (now : Nat) (world : W)
    (hintime : (d.task monitor event attributes).InTime [] { now } world) :
    d.processSuspending monitor event attributes { now } world =
      (.ok (d.process monitor event attributes world).1,
        (d.process monitor event attributes world).2) := by
  have hwalk := Suspending.walk_keepsUp monitor [d.root] [] 0
    (startContext event attributes) (monitor (.dispatching (Routable.path event)) world)
    .done
  rw [Task.bind_done] at hwalk
  obtain ⟨reached, _, _, _, hrun⟩ :=
    ((Task.Leads.doing _ _ world).trans hwalk) [] { now } rfl rfl hintime
  simp only [processSuspending, task, hrun]
  rfl

/-- A dispatch keeps to its limits where no callback sets any. -/
theorem task_inTime_of_unlimited
    (hall : Handler.Throughout (fun h _ => h.Unlimited) [d.root]) (clock : Clock)
    (world : W) : (d.task monitor event attributes).InTime [] clock world := by
  have hunlimited : (d.task monitor event attributes).Unlimited :=
    fun _ => Suspending.walk_unlimited monitor hall [] 0 (startContext event attributes)
  exact hunlimited.inTime clock world

/-- The suspending engine refines the blocking one. Take two chains of handlers that
differ at most in where the callbacks of the second one wait. Both are refused for the
same reason, or both make a dispatcher; then, for every event and all attributes to start
from, a dispatch of the second one with the suspending engine in which no limit of time
passes resolves to the context, leaves the world, and gives the notices, call by call and
context by context, of the dispatch of the first one with the blocking engine. -/
theorem suspending_refines_blocking {handlers suspending : List (Handler E W)}
    (hsame : Handler.outlineAll suspending = Handler.outlineAll handlers) :
    (∃ error, ofHandlers handlers = .error error ∧ ofHandlers suspending = .error error) ∨
      ∃ d twin, ofHandlers handlers = .ok d ∧ ofHandlers suspending = .ok twin ∧
        ∀ (monitor : Monitor E W) (event : E) (attributes : Attributes) (now : Nat)
          (world : W), (twin.task monitor event attributes).InTime [] { now } world →
          twin.processSuspending monitor event attributes { now } world =
              (.ok (d.process monitor event attributes world).1,
                (d.process monitor event attributes world).2) ∧
            twin.suspendingNotices monitor event attributes { now } world =
              d.notices monitor event attributes world := by
  apply (ofHandlers_outline hsame).imp id
  rintro ⟨d, twin, hd, htwin, houtline⟩
  refine ⟨d, twin, hd, htwin, fun monitor event attributes now world hintime => ⟨?_, ?_⟩⟩
  · rw [processSuspending_eq monitor event attributes now world hintime,
      houtline.process_eq monitor event attributes world]
  · have hobserved := (twin.task_mirrors monitor event attributes).inTime
      (o := ⟨world, []⟩) hintime
    rw [suspendingNotices, processSuspending_eq _ event attributes now _ hobserved, notices,
      houtline.observed.process_eq]

/-- A filter around a route that counts its calls. -/
def promptSteps : List (Handler TextEvent Nat) :=
  [.filter Predicate.any Plan.proceed,
    .on Predicate.any fun ctx => .doing (· + 1) (.done (ctx.withHandled true))]

/-- The same steps, which wait before and after they do something. -/
def waitingSteps : List (Handler TextEvent Nat) :=
  [.filter Predicate.any fun ctx =>
      .pause .turn (.next ctx fun result => .pause (.sleep ⟨5⟩) (.done result)),
    .on Predicate.any fun ctx =>
      .doing (· + 1) (.pause .turn (.pause .turn (.done (ctx.withHandled true))))]

/-- Waiting makes no difference to the steps. -/
theorem waitingSteps_refine_promptSteps :
    ∃ d twin, ofHandlers promptSteps = .ok d ∧ ofHandlers waitingSteps = .ok twin ∧
      twin.processSuspending Monitor.silent ⟨"/"⟩ Attributes.empty { now := 0 } 0 =
          (.ok (d.process Monitor.silent ⟨"/"⟩ Attributes.empty 0).1, 1) ∧
        twin.suspendingNotices Monitor.silent ⟨"/"⟩ Attributes.empty { now := 0 } 0 =
          d.notices Monitor.silent ⟨"/"⟩ Attributes.empty 0 := by
  have hsame : Handler.outlineAll waitingSteps = Handler.outlineAll promptSteps := rfl
  rcases suspending_refines_blocking hsame with
    ⟨error, hrefused, _⟩ | ⟨d, twin, hprompt, hwaiting, hrefines⟩
  · cases hrefused
  · cases hprompt
    cases hwaiting
    refine ⟨_, _, rfl, rfl, hrefines Monitor.silent ⟨"/"⟩ Attributes.empty 0 0 ?_⟩
    apply task_inTime_of_unlimited
    simp [Handler.throughout_cons, Handler.inside, Handler.Unlimited, Handler.callback?,
      Plan.Unlimited, Plan.doing]

end Dispatcher

end RequestRouting
