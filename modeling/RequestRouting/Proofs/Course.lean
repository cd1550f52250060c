import RequestRouting.Proofs.Observation

/-!
# The course of a dispatch

What a walk can do, said once: which contexts it goes through and which notices it gives,
one rule for each kind of handler. The rules speak of contexts and notices only; the world
enters as whatever it lets the plans of callbacks do. Every walk of the blocking engine
keeps to the rules (`Blocking.follows_walk`), and observing it changes nothing, so a
statement about all dispatches is proved from the rules without looking at the engine.
-/

namespace RequestRouting

variable {E W : Type}

/-- What a part of a dispatch can do: the context it starts from, the context it ends
with, and the notices in between. -/
abbrev Course (E : Type) := Context E → Context E → List (Notice E) → Prop

/-- How a call ends, as the world hears of it. -/
def Notice.ended (address : Address) (ctx : Context E) :
    Except Failure (Context E) → Notice E
  | .ok result => .returned address result
  | .error failure => .failed address ctx failure

/-- The context that goes on after a call. -/
def Context.afterCall (ctx : Context E) : Except Failure (Context E) → Context E
  | .ok result => result
  | .error failure => ctx.withException failure

/-- The context that goes on after the call of a handler that takes care of exceptions. -/
def Context.afterRecovery (ctx : Context E) (clears : Bool) :
    Except Failure (Context E) → Context E
  | .ok result => if clears then result.withoutException else result
  | .error failure => ctx.withException failure

/-- How a plan can be carried out, where `rest` is what the rest of the chain can do. -/
inductive Plan.Runs (rest : Course E) :
    Plan E W → Except Failure (Context E) → List (Notice E) → Prop
  | done (ctx : Context E) : Runs rest (.done ctx) (.ok ctx) []
  | fail (failure : Failure) : Runs rest (.fail failure) (.error failure) []
  | panic (payload : PanicPayload) : Runs rest (.panic payload) (.error payload.failure) []
  | next {ctx middle : Context E} {resume : Context E → Plan E W}
      {outcome : Except Failure (Context E)} {first second : List (Notice E)}
      (hrest : rest ctx middle first) (hresume : Runs rest (resume middle) outcome second) :
      Runs rest (.next ctx resume) outcome (first ++ second)
  | act (update : W → W) {resume : W → Plan E W} (world : W)
      {outcome : Except Failure (Context E)} {seen : List (Notice E)}
      (hresume : Runs rest (resume world) outcome seen) :
      Runs rest (.act update resume) outcome seen
  | pause (how : Pause) {resume : Plan E W} {outcome : Except Failure (Context E)}
      {seen : List (Notice E)} (hresume : Runs rest resume outcome seen) :
      Runs rest (.pause how resume) outcome seen
  | abort {resume : Plan E W} {outcome : Except Failure (Context E)}
      {seen : List (Notice E)} (hresume : Runs rest resume outcome seen) :
      Runs rest (.abort resume) outcome seen
  | limited (limit : Duration) {ctx middle : Context E}
      {resume : Option (Context E) → Plan E W} {outcome : Except Failure (Context E)}
      {first second : List (Notice E)} (hrest : rest ctx middle first)
      (hresume : Runs rest (resume (some middle)) outcome second) :
      Runs rest (.limited limit ctx resume) outcome (first ++ second)

/-- How a callback can be called: the call is announced, the plan is carried out, and the
end of the call is announced. -/
inductive Callback.Calls (rest : Course E) (address : Address) (callback : Callback E W)
    (ctx : Context E) : Except Failure (Context E) → List (Notice E) → Prop
  | intro {outcome : Except Failure (Context E)} {seen : List (Notice E)}
      (hruns : (callback ctx).Runs rest outcome seen) :
      Calls rest address callback ctx outcome
        (.called address ctx :: (seen ++ [.ended address ctx outcome]))

namespace Handler

/-- How a selected handler can run: `rest` is what the rest of its chain can do, `inner`
what the chain inside it can do. -/
inductive Does (rest inner : Course E) (address : Address) : Handler E W → Course E
  | on {p : Predicate E} {callback : Callback E W} {ctx result : Context E}
      {outcome : Except Failure (Context E)} {first second : List (Notice E)}
      (hcall : callback.Calls rest address ctx outcome first)
      (hrest : rest (ctx.afterCall outcome) result second) :
      Does rest inner address (on p callback) ctx result (first ++ second)
  | after {p : Predicate E} {callback : Callback E W} {ctx middle : Context E}
      {outcome : Except Failure (Context E)} {first second : List (Notice E)}
      (hrest : rest ctx middle first)
      (hcall : callback.Calls rest address middle outcome second) :
      Does rest inner address (after p callback) ctx (middle.afterCall outcome)
        (first ++ second)
  | filter {p : Predicate E} {callback : Callback E W} {ctx result : Context E}
      {seen : List (Notice E)} (hcall : callback.Calls rest address ctx (.ok result) seen) :
      Does rest inner address (filter p callback) ctx result seen
  | failedFilter {p : Predicate E} {callback : Callback E W} {ctx result : Context E}
      {failure : Failure} {first second : List (Notice E)}
      (hcall : callback.Calls rest address ctx (.error failure) first)
      (hrest : rest (ctx.withException failure) result second) :
      Does rest inner address (filter p callback) ctx result (first ++ second)
  | passed {p : Predicate E} {accepts : Failure → Bool} {callback : Callback E W}
      {clears : Bool} {ctx result : Context E} {seen : List (Notice E)}
      (hrest : rest ctx result seen) (hpassed : result.exception.any accepts = false) :
      Does rest inner address (recover p accepts callback clears) ctx result seen
  | recovered {p : Predicate E} {accepts : Failure → Bool} {callback : Callback E W}
      {clears : Bool} {ctx middle : Context E} {outcome : Except Failure (Context E)}
      {first second : List (Notice E)} (hrest : rest ctx middle first)
      (haccepts : middle.exception.any accepts = true)
      (hcall : callback.Calls rest address middle outcome second) :
      Does rest inner address (recover p accepts callback clears) ctx
        (middle.afterRecovery clears outcome) (first ++ second)
  | group {p : Predicate E} {handlers : List (Handler E W)} {ctx middle result : Context E}
      {first second : List (Notice E)} (hinner : inner ctx.enter middle first)
      (hrest : rest (middle.leave ctx.position) result second) :
      Does rest inner address (group p handlers) ctx result (first ++ second)

theorem sizeOf_inside_lt (h : Handler E W) (rest : List (Handler E W)) :
    sizeOf h.inside < sizeOf (h :: rest) := by
  cases h <;> simp [inside] <;> omega

theorem sizeOf_rest_lt (h : Handler E W) (rest : List (Handler E W)) :
    sizeOf rest < sizeOf (h :: rest) := by
  rw [List.cons.sizeOf_spec]
  omega

/-- How the rest of a chain can run: the handlers from `index` on, of the chain at
`address`. -/
def Walks [Routable E] : List (Handler E W) → Address → Nat → Course E
  | [], _, index, ctx, result, seen =>
      result = (if ctx.position.attached then ctx.atEnd index else ctx) ∧ seen = []
  | h :: rest, address, index, ctx, result, seen =>
      if ctx.position.attached then
        if ctx.goesInto index h then
          ∃ between, h.Does (Walks rest address (index + 1))
              (Walks h.inside (address ++ [index]) 0) (address ++ [index])
              (ctx.select h.predicate index) result between ∧
            seen = .entered (address ++ [index]) ::
              (between ++ [.left (address ++ [index])])
        else Walks rest address (index + 1) ctx result seen
      else result = ctx ∧ seen = []
termination_by handlers => sizeOf handlers
decreasing_by
  · exact sizeOf_rest_lt h rest
  · exact sizeOf_inside_lt h rest
  · exact sizeOf_rest_lt h rest

section Walks

variable [Routable E] {h : Handler E W} {rest : List (Handler E W)} {address : Address}
  {index : Nat} {ctx result : Context E} {seen : List (Notice E)}

theorem walks_nil (hwalk : Walks ([] : List (Handler E W)) address index ctx result seen) :
    result = (if ctx.position.attached then ctx.atEnd index else ctx) ∧ seen = [] := by
  rwa [Walks] at hwalk

/-- The three ways to go on with a chain: the context is outside any chain and comes back,
it passes the first handler over, or it goes into it. -/
theorem walks_cons (hwalk : Walks (h :: rest) address index ctx result seen) :
    (ctx.position.attached = false ∧ result = ctx ∧ seen = []) ∨
      (ctx.position.attached = true ∧ ctx.goesInto index h = false ∧
        Walks rest address (index + 1) ctx result seen) ∨
      (ctx.position.attached = true ∧ ctx.goesInto index h = true ∧
        ∃ between, h.Does (Walks rest address (index + 1))
            (Walks h.inside (address ++ [index]) 0) (address ++ [index])
            (ctx.select h.predicate index) result between ∧
          seen = .entered (address ++ [index]) ::
            (between ++ [.left (address ++ [index])])) := by
  rw [Walks] at hwalk
  grind

end Walks

end Handler

/-! ## The blocking engine keeps to the rules -/

/-- A computation in an observed world does what it does in the world, in a way that a
rule allows, and adds notices that do not depend on the earlier ones. -/
def Follows {α : Type} (rule : α → List (Notice E) → Prop) (plain : W → α × W)
    (observed : Observed E W → α × Observed E W) : Prop :=
  ∀ world, ∃ seen, rule (plain world).1 seen ∧ ∀ earlier,
    observed ⟨world, earlier⟩ = ((plain world).1, ⟨(plain world).2, earlier ++ seen⟩)

section Follows

variable {course : Course E} {next : Context E → W → Context E × W}
  {observedNext : Context E → Observed E W → Context E × Observed E W}

/-- Carrying out a plan keeps to the rules for plans. -/
theorem Plan.follows_run
    (hnext : ∀ ctx, Follows (course ctx) (next ctx) (observedNext ctx)) (plan : Plan E W) :
    Follows (plan.Runs course) (plan.run next) (plan.observed.run observedNext) := by
  intro world
  induction plan generalizing world with
  | done ctx => exact ⟨[], .done ctx, fun earlier => by simp [observed, run]⟩
  | fail failure => exact ⟨[], .fail failure, fun earlier => by simp [observed, run]⟩
  | panic payload => exact ⟨[], .panic payload, fun earlier => by simp [observed, run]⟩
  | next ctx resume ih =>
      obtain ⟨first, hfirst, hnextRun⟩ := hnext ctx world
      obtain ⟨second, hsecond, hresumeRun⟩ := ih (next ctx world).1 (next ctx world).2
      refine ⟨first ++ second, .next hfirst hsecond, fun earlier => ?_⟩
      simp only [observed, run, hnextRun, hresumeRun, List.append_assoc]
  | act update resume ih =>
      obtain ⟨seen, hseen, hrun⟩ := ih (update world) (update world)
      exact ⟨seen, .act update (update world) hseen, hrun⟩
  | pause how resume ih =>
      obtain ⟨seen, hseen, hrun⟩ := ih world
      exact ⟨seen, .pause how hseen, hrun⟩
  | abort resume ih =>
      obtain ⟨seen, hseen, hrun⟩ := ih world
      exact ⟨seen, .abort hseen, hrun⟩
  | limited limit ctx resume ih =>
      obtain ⟨first, hfirst, hnextRun⟩ := hnext ctx world
      obtain ⟨second, hsecond, hresumeRun⟩ :=
        ih (some (next ctx world).1) (next ctx world).2
      refine ⟨first ++ second, .limited limit hfirst hsecond, fun earlier => ?_⟩
      simp only [observed, run, hnextRun, hresumeRun, List.append_assoc]

namespace Blocking

variable (monitor : Monitor E W)

/-- Calling a callback keeps to the rules for calls. -/
theorem follows_invoke
    (hnext : ∀ ctx, Follows (course ctx) (next ctx) (observedNext ctx)) (address : Address)
    (callback : Callback E W) (ctx : Context E) (world : W) :
    ∃ outcome seen after, callback.Calls course address ctx outcome seen ∧
      invoke monitor address callback next ctx world =
        (outcome.isOk, ctx.afterCall outcome, after) ∧
      ∀ earlier, invoke monitor.observed address (fun ctx => (callback ctx).observed)
          observedNext ctx ⟨world, earlier⟩ =
        (outcome.isOk, ctx.afterCall outcome, ⟨after, earlier ++ seen⟩) := by
  obtain ⟨seen, hruns, hrun⟩ :=
    Plan.follows_run hnext (callback ctx) (monitor (.called address ctx) world)
  simp only [invoke, Monitor.observed, hrun]
  generalize (callback ctx).run next (monitor (.called address ctx) world) = ran at hruns ⊢
  obtain ⟨outcome, after⟩ := ran
  cases outcome with
  | ok result =>
      refine ⟨.ok result, _, _, .intro hruns, rfl, fun earlier => ?_⟩
      simp [Context.afterCall, Notice.ended, Except.isOk, Except.toBool]
  | error failure =>
      refine ⟨.error failure, _, _, .intro hruns, rfl, fun earlier => ?_⟩
      simp [Context.afterCall, Notice.ended, Except.isOk, Except.toBool]

variable [Routable E]

/-- Running a handler keeps to the rules for handlers. -/
theorem follows_process
    (hnext : ∀ ctx, Follows (course ctx) (next ctx) (observedNext ctx)) {inner : Course E}
    (h : Handler E W) (address : Address)
    (hinner : ∀ ctx, Follows (inner ctx) (walk monitor h.inside address 0 ctx)
      (walk monitor.observed (Handler.observedAll h.inside) address 0 ctx))
    (ctx : Context E) :
    Follows (h.Does course inner address ctx) (process monitor h address next ctx)
      (process monitor.observed h.observed address observedNext ctx) := by
  intro world
  cases h with
  | on p callback =>
      obtain ⟨outcome, first, after, hcall, hplain, hobserved⟩ :=
        follows_invoke monitor hnext address callback ctx world
      obtain ⟨second, hrest, hrun⟩ := hnext (ctx.afterCall outcome) after
      simp only [Handler.observed, process, hplain, hobserved, hrun]
      exact ⟨first ++ second, .on hcall hrest, fun _ => by rw [List.append_assoc]⟩
  | after p callback =>
      obtain ⟨first, hrest, hrun⟩ := hnext ctx world
      obtain ⟨outcome, second, after, hcall, hplain, hobserved⟩ :=
        follows_invoke monitor hnext address callback (next ctx world).1 (next ctx world).2
      simp only [Handler.observed, process, hrun, hplain, hobserved]
      exact ⟨first ++ second, .after hrest hcall, fun _ => by rw [List.append_assoc]⟩
  | filter p callback =>
      obtain ⟨outcome, first, after, hcall, hplain, hobserved⟩ :=
        follows_invoke monitor hnext address callback ctx world
      simp only [Handler.observed, process, hplain, hobserved]
      cases outcome with
      | ok result => exact ⟨first, .filter hcall, fun _ => rfl⟩
      | error failure =>
          obtain ⟨second, hrest, hrun⟩ := hnext (ctx.withException failure) after
          refine ⟨first ++ second, .failedFilter hcall hrest, fun earlier => ?_⟩
          have hran := hrun (earlier ++ first)
          rw [List.append_assoc] at hran
          exact hran
  | recover p accepts callback clears =>
      obtain ⟨first, hrest, hrun⟩ := hnext ctx world
      simp only [Handler.observed, process, hrun]
      by_cases haccepts : (next ctx world).1.exception.any accepts = true
      · obtain ⟨outcome, second, after, hcall, hplain, hobserved⟩ :=
          follows_invoke monitor hnext address callback (next ctx world).1 (next ctx world).2
        have hresult : (if outcome.isOk && clears then
              ((next ctx world).1.afterCall outcome).withoutException
            else (next ctx world).1.afterCall outcome) =
            (next ctx world).1.afterRecovery clears outcome := by
          cases outcome <;> cases clears <;> rfl
        simp only [haccepts, if_true, hplain, hobserved, hresult]
        exact ⟨first ++ second, .recovered hrest haccepts hcall,
          fun _ => by rw [List.append_assoc]⟩
      · simp only [haccepts]
        exact ⟨first, .passed hrest (Bool.eq_false_iff.mpr haccepts), fun _ => rfl⟩
  | group p handlers =>
      obtain ⟨first, hfirst, hinnerRun⟩ := hinner ctx.enter world
      obtain ⟨second, hrest, hrun⟩ :=
        hnext ((walk monitor handlers address 0 ctx.enter world).1.leave ctx.position)
          (walk monitor handlers address 0 ctx.enter world).2
      simp only [Handler.inside] at hinnerRun
      simp only [Handler.observed, process, hinnerRun, hrun]
      exact ⟨first ++ second, .group hfirst hrest, fun _ => by rw [List.append_assoc]⟩

/-- Walking a chain keeps to the rules for chains. -/
theorem follows_walk (handlers : List (Handler E W)) (address : Address) (index : Nat)
    (ctx : Context E) :
    Follows (Handler.Walks handlers address index ctx)
      (walk monitor handlers address index ctx)
      (walk monitor.observed (Handler.observedAll handlers) address index ctx) := by
  induction handlers using Handler.chainInduction generalizing address index ctx with
  | nil =>
      intro world
      refine ⟨[], ?_, fun earlier => ?_⟩
      · rw [Handler.Walks]
        exact ⟨rfl, rfl⟩
      · simp [Handler.observedAll, walk]
  | cons h rest ihInside ihRest =>
      intro world
      simp only [Handler.observedAll, walk, Context.goesInto_observed,
        Handler.predicate_observed, Handler.Walks]
      split
      · split
        · obtain ⟨between, hdoes, hrun⟩ :=
            follows_process monitor (ihRest address (index + 1)) h (address ++ [index])
              (ihInside (address ++ [index]) 0) (ctx.select h.predicate index)
              (monitor (.entered (address ++ [index])) world)
          refine ⟨_, ⟨between, hdoes, rfl⟩, fun earlier => ?_⟩
          simp [Monitor.observed, hrun]
        · exact ihRest address (index + 1) ctx world
      · exact ⟨[], ⟨rfl, rfl⟩, fun earlier => by simp⟩

end Blocking

end Follows

namespace Dispatcher

variable [Routable E] (d : Dispatcher E W) (monitor : Monitor E W) (event : E)
  (attributes : Attributes)

/-- A dispatch announces the path of its event and takes a walk through the root. -/
theorem walks_notices (world : W) :
    ∃ seen, Handler.Walks [d.root] [] 0 (startContext event attributes)
        (d.process monitor event attributes world).1 seen ∧
      d.notices monitor event attributes world =
        .dispatching (Routable.path event) :: seen := by
  obtain ⟨seen, hwalk, hrun⟩ := Blocking.follows_walk monitor [d.root] [] 0
    (startContext event attributes) (monitor (.dispatching (Routable.path event)) world)
  refine ⟨seen, hwalk, ?_⟩
  have hran := hrun [.dispatching (Routable.path event)]
  simp only [Handler.observedAll] at hran
  simp [notices, process, observed, Monitor.observed, hran]

/-- Observing a dispatch of the blocking engine changes neither its result nor what it
leaves behind. -/
theorem process_observed (o : Observed E W) :
    (d.observed.process monitor.observed event attributes o).1 =
        (d.process monitor event attributes o.world).1 ∧
      (d.observed.process monitor.observed event attributes o).2.world =
        (d.process monitor event attributes o.world).2 := by
  obtain ⟨seen, _, hrun⟩ := Blocking.follows_walk monitor [d.root] [] 0
    (startContext event attributes) (monitor (.dispatching (Routable.path event)) o.world)
  have hran := hrun (o.notices ++ [.dispatching (Routable.path event)])
  simp only [Handler.observedAll] at hran
  simp [process, observed, Monitor.observed, hran]

end Dispatcher

end RequestRouting
