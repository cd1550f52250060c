import RequestRouting.Proofs.Selection

/-!
# Where contexts come from

A monitor hears which handler has been selected, but not for which context: being selected changes
the context. The walks of this module are those of the engines, with monitors that are also told the
context on which the rest of a chain was run when the handler was selected (`Blocking.walkFrom`,
`Suspending.walkFrom`). What they keep, the sightings of a dispatch, are the notices of the dispatch
with these contexts beside them.

A dispatch with sightings runs side by side with an observed dispatch, and what holds of every call
that a selected handler makes holds of all sightings (`Dispatcher.forall_sightings`).
-/

namespace RequestRouting

open Handler (listing mem_listing_cons)

variable {E W : Type}

/-- A notice about a handler, with the context on which the rest of a chain was run when the handler
was selected. -/
structure Sighting (E : Type) where
  start : Context E
  notice : Notice E

/-- A world with what has been sighted in it, oldest first. -/
structure Sighted (E W : Type) where
  world : W
  sightings : List (Sighting E)

/-- Changes the world and leaves the record alone. -/
def Sighted.change (update : W → W) (s : Sighted E W) : Sighted E W :=
  { s with world := update s.world }

/-- The plan in a world with sightings. It sees the world without the record. -/
def Plan.sighted : Plan E W → Plan E (Sighted E W)
  | done ctx => done ctx
  | fail failure => fail failure
  | panic payload => panic payload
  | next ctx resume => next ctx fun result => (resume result).sighted
  | act update resume => act (Sighted.change update) fun s => (resume s.world).sighted
  | pause how resume => pause how resume.sighted
  | abort resume => abort resume.sighted
  | limited limit ctx resume => limited limit ctx fun result => (resume result).sighted

namespace Handler

mutual

/-- The handler in a world with sightings. -/
def sighted : Handler E W → Handler E (Sighted E W)
  | on p callback => on p fun ctx => (callback ctx).sighted
  | after p callback => after p fun ctx => (callback ctx).sighted
  | filter p callback => filter p fun ctx => (callback ctx).sighted
  | recover p accepts callback clears =>
      recover p accepts (fun ctx => (callback ctx).sighted) clears
  | group p handlers => group p (sightedAll handlers)

/-- The handlers of a chain in a world with sightings. -/
def sightedAll : List (Handler E W) → List (Handler E (Sighted E W))
  | [] => []
  | h :: rest => sighted h :: sightedAll rest

end

@[simp]
theorem predicate_sighted (h : Handler E W) : h.sighted.predicate = h.predicate := by
  cases h <;> rfl

@[simp]
theorem isTerminal_sighted (h : Handler E W) : h.sighted.isTerminal = h.isTerminal := by
  cases h <;> rfl

end Handler

/-- A context goes into a handler in a world with sightings whenever it goes into the handler. -/
@[simp]
theorem Context.goesInto_sighted [Routable E] (ctx : Context E) (index : Nat)
    (h : Handler E W) : ctx.goesInto index h.sighted = ctx.goesInto index h := by
  simp [Context.goesInto, Handler.runsOnFailure]

/-- The monitor that also keeps a record of what it is told. -/
def Monitor.sighted (monitor : Monitor E W) (start : Context E) : Monitor E (Sighted E W) :=
  fun notice s => ⟨monitor notice s.world, s.sightings ++ [⟨start, notice⟩]⟩

/-- The context goes into the handler when it has been selected for the context `start`. -/
def Context.SelectedFrom [Routable E] (ctx start : Context E) (h : Handler E W) : Prop :=
  ∃ index, start.goesInto index h = true ∧ ctx = start.select h.predicate index

/-! ## Walks -/

namespace Blocking

variable [Routable E] (monitor : Context E → Monitor E W)

mutual

/-- Runs a handler that has been selected when the rest of its chain was run from `start`. -/
def processFrom (h : Handler E W) (address : Address) (next : Context E → W → Context E × W)
    (start ctx : Context E) (world : W) : Context E × W :=
  match h with
  | .group _ handlers =>
      let parent := ctx.position
      let (ctx, world) := walkFrom handlers address 0 ctx.enter world
      next (ctx.leave parent) world
  | h => process (monitor start) h address next ctx world

/-- Runs the rest of a chain as `walk` does, with monitors that know where handlers have been
selected. -/
def walkFrom (handlers : List (Handler E W)) (address : Address) (index : Nat)
    (ctx : Context E) (world : W) : Context E × W :=
  match handlers with
  | [] => (if ctx.position.attached then ctx.atEnd index else ctx, world)
  | h :: rest =>
      if ctx.position.attached then
        if ctx.goesInto index h then
          let here := address ++ [index]
          let world := monitor ctx (.entered here) world
          let (result, world) :=
            processFrom h here (walkFrom rest address (index + 1)) ctx
              (ctx.select h.predicate index) world
          (result, monitor ctx (.left here) world)
        else walkFrom rest address (index + 1) ctx world
      else (ctx, world)

end

/-- Where monitors are told nothing more, it is the walk of the engine. -/
theorem walkFrom_const (monitor : Monitor E W) (handlers : List (Handler E W)) (address : Address)
    (index : Nat) :
    walkFrom (fun _ => monitor) handlers address index =
      walk monitor handlers address index := by
  induction handlers using Handler.chainInduction generalizing address index with
  | nil =>
      funext ctx world
      simp only [walkFrom, walk]
  | cons h rest ihInside ihRest =>
      have hprocess (next : Context E → W → Context E × W) (start ctx : Context E) (world : W) :
          processFrom (fun _ => monitor) h (address ++ [index]) next start ctx world =
            process monitor h (address ++ [index]) next ctx world := by
        cases h with
        | group p handlers =>
            have hinside : walkFrom (fun _ => monitor) handlers (address ++ [index]) 0 =
                walk monitor handlers (address ++ [index]) 0 := ihInside _ _
            simp only [processFrom, process, hinside]
        | on | after | filter | recover => simp only [processFrom]
      funext ctx world
      simp only [walkFrom, walk, hprocess, ihRest]

end Blocking

namespace Suspending

variable [Routable E] (monitor : Context E → Monitor E W)

mutual

/-- The task of a handler that has been selected when the rest of its chain was run from `start`. -/
def processFrom (h : Handler E W) (address : Address) (next : Context E → Task E W)
    (start ctx : Context E) : Task E W :=
  match h with
  | .group _ handlers =>
      (walkFrom handlers address 0 ctx.enter).bind fun result => next (result.leave ctx.position)
  | h => process (monitor start) h address next ctx

/-- The task of the rest of a chain as `walk` has it, with monitors that know where handlers have
been selected. -/
def walkFrom (handlers : List (Handler E W)) (address : Address) (index : Nat)
    (ctx : Context E) : Task E W :=
  match handlers with
  | [] => .done (if ctx.position.attached then ctx.atEnd index else ctx)
  | h :: rest =>
      if ctx.position.attached then
        if ctx.goesInto index h then
          let here := address ++ [index]
          .doing (monitor ctx (.entered here))
            ((processFrom h here (walkFrom rest address (index + 1)) ctx
              (ctx.select h.predicate index)).bind
                fun result => .doing (monitor ctx (.left here)) (.done result))
        else walkFrom rest address (index + 1) ctx
      else .done ctx

end

/-- Where monitors are told nothing more, it is the task of the engine. -/
theorem walkFrom_const (monitor : Monitor E W) (handlers : List (Handler E W)) (address : Address)
    (index : Nat) :
    walkFrom (fun _ => monitor) handlers address index =
      walk monitor handlers address index := by
  induction handlers using Handler.chainInduction generalizing address index with
  | nil =>
      funext ctx
      simp only [walkFrom, walk]
  | cons h rest ihInside ihRest =>
      have hprocess (next : Context E → Task E W) (start ctx : Context E) :
          processFrom (fun _ => monitor) h (address ++ [index]) next start ctx =
            process monitor h (address ++ [index]) next ctx := by
        cases h with
        | group p handlers =>
            have hinside : walkFrom (fun _ => monitor) handlers (address ++ [index]) 0 =
                walk monitor handlers (address ++ [index]) 0 := ihInside _ _
            simp only [processFrom, process, hinside]
        | on | after | filter | recover => simp only [processFrom]
      funext ctx
      simp only [walkFrom, walk, hprocess, ihRest]

end Suspending

/-! ## Side by side -/

/-- What has been sighted is what has been noticed since `earlier`, and is as `P` says. -/
structure Sighted.Shows (P : Sighting E → Prop) (earlier : List (Notice E)) (s : Sighted E W)
    (o : Observed E W) : Prop where
  world : s.world = o.world
  notices : o.notices = earlier ++ s.sightings.map Sighting.notice
  sound : ∀ sighting ∈ s.sightings, P sighting

section Shows

variable {P : Sighting E → Prop} {earlier : List (Notice E)} {s : Sighted E W} {o : Observed E W}

theorem Sighted.Shows.change (hshows : s.Shows P earlier o) (update : W → W) :
    (s.change update).Shows P earlier (o.change update) :=
  { hshows with world := congrArg update hshows.world }

theorem Sighted.Shows.monitor (hshows : s.Shows P earlier o) (monitor : Monitor E W)
    {start : Context E} {notice : Notice E} (hnotice : P ⟨start, notice⟩) :
    (monitor.sighted start notice s).Shows P earlier (monitor.observed notice o) where
  world := congrArg (monitor notice) hshows.world
  notices := by simp [Monitor.sighted, Monitor.observed, hshows.notices]
  sound := List.forall_mem_append.mpr ⟨hshows.sound, List.forall_mem_singleton.mpr hnotice⟩

end Shows

/-- The computations have the same results, and the one has sighted what the other has noticed. -/
def Simulates {α : Type} (P : Sighting E → Prop) (earlier : List (Notice E))
    (sighted : Sighted E W → α × Sighted E W) (observed : Observed E W → α × Observed E W) : Prop :=
  ∀ s o, s.Shows P earlier o → ∃ result after observedAfter,
    sighted s = (result, after) ∧ observed o = (result, observedAfter) ∧
      after.Shows P earlier observedAfter

section Simulates

variable {P : Sighting E → Prop} {earlier : List (Notice E)}
  {next : Context E → Sighted E W → Context E × Sighted E W}
  {observedNext : Context E → Observed E W → Context E × Observed E W}

theorem Plan.simulates_run
    (hnext : ∀ ctx, Simulates P earlier (next ctx) (observedNext ctx)) (plan : Plan E W) :
    Simulates P earlier (plan.sighted.run next) (plan.observed.run observedNext) := by
  intro s o hshows
  induction plan generalizing s o with
  | done ctx => exact ⟨.ok ctx, s, o, rfl, rfl, hshows⟩
  | fail failure => exact ⟨.error failure, s, o, rfl, rfl, hshows⟩
  | panic payload => exact ⟨.error payload.failure, s, o, rfl, rfl, hshows⟩
  | next ctx resume ih =>
      obtain ⟨result, after, observedAfter, hrun, hobserved, hshows⟩ := hnext ctx s o hshows
      simp only [sighted, observed, run, hrun, hobserved]
      exact ih result after observedAfter hshows
  | act update resume ih =>
      simp only [sighted, observed, run]
      have hworld : (o.change update).world = (s.change update).world :=
        (hshows.change update).world.symm
      rw [hworld]
      exact ih _ _ _ (hshows.change update)
  | pause how resume ih => exact ih s o hshows
  | abort resume ih => exact ih s o hshows
  | limited limit ctx resume ih =>
      obtain ⟨result, after, observedAfter, hrun, hobserved, hshows⟩ := hnext ctx s o hshows
      simp only [sighted, observed, run, hrun, hobserved]
      exact ih (some result) after observedAfter hshows

variable (hother : ∀ sighting : Sighting E, sighting.notice.call? = none → P sighting)
  (monitor : Monitor E W)

include hother

namespace Blocking

theorem simulates_invoke
    (hnext : ∀ ctx, Simulates P earlier (next ctx) (observedNext ctx)) {address : Address}
    (callback : Callback E W) {start ctx : Context E} (hcalled : P ⟨start, .called address ctx⟩)
    {s : Sighted E W} {o : Observed E W} (hshows : s.Shows P earlier o) :
    ∃ succeeded result after observedAfter,
      invoke (monitor.sighted start) address (fun ctx => (callback ctx).sighted) next ctx s =
        (succeeded, result, after) ∧
      invoke monitor.observed address (fun ctx => (callback ctx).observed) observedNext ctx o =
        (succeeded, result, observedAfter) ∧ after.Shows P earlier observedAfter := by
  obtain ⟨outcome, after, observedAfter, hrun, hobserved, hshows⟩ :=
    Plan.simulates_run hnext (callback ctx) _ _ (hshows.monitor monitor hcalled)
  simp only [invoke, hrun, hobserved]
  cases outcome with
  | ok result => exact ⟨true, result, _, _, rfl, rfl, hshows.monitor monitor (hother _ rfl)⟩
  | error failure => exact ⟨false, _, _, _, rfl, rfl, hshows.monitor monitor (hother _ rfl)⟩

variable [Routable E]

theorem simulates_process
    (hnext : ∀ ctx, Simulates P earlier (next ctx) (observedNext ctx)) {h : Handler E W}
    {address : Address} {start ctx : Context E}
    (hcalled : ∀ middle, (h.opens → middle = ctx) → P ⟨start, .called address middle⟩)
    (hinside : ∀ ctx, Simulates P earlier
      (walkFrom monitor.sighted (Handler.sightedAll h.inside) address 0 ctx)
      (walk monitor.observed (Handler.observedAll h.inside) address 0 ctx)) :
    Simulates P earlier (processFrom monitor.sighted h.sighted address next start ctx)
      (process monitor.observed h.observed address observedNext ctx) := by
  intro s o hshows
  cases h with
  | on p callback =>
      obtain ⟨succeeded, result, after, observedAfter, hrun, hobserved, hshows⟩ :=
        simulates_invoke hother monitor hnext callback (hcalled ctx fun _ => rfl) hshows
      simp only [Handler.sighted, Handler.observed, processFrom, process, hrun, hobserved]
      exact hnext result after observedAfter hshows
  | after p callback =>
      obtain ⟨middle, between, observedBetween, hearlier, hobservedEarlier, hshows⟩ :=
        hnext ctx s o hshows
      obtain ⟨succeeded, result, after, observedAfter, hrun, hobserved, hshows⟩ :=
        simulates_invoke hother monitor hnext callback (hcalled middle (by rintro ⟨⟩)) hshows
      simp only [Handler.sighted, Handler.observed, processFrom, process, hearlier,
        hobservedEarlier, hrun, hobserved]
      exact ⟨result, after, observedAfter, rfl, rfl, hshows⟩
  | filter p callback =>
      obtain ⟨succeeded, result, after, observedAfter, hrun, hobserved, hshows⟩ :=
        simulates_invoke hother monitor hnext callback (hcalled ctx fun _ => rfl) hshows
      simp only [Handler.sighted, Handler.observed, processFrom, process, hrun, hobserved]
      cases succeeded with
      | true => exact ⟨result, after, observedAfter, rfl, rfl, hshows⟩
      | false => exact hnext result after observedAfter hshows
  | recover p accepts callback clears =>
      obtain ⟨middle, between, observedBetween, hearlier, hobservedEarlier, hshows⟩ :=
        hnext ctx s o hshows
      simp only [Handler.sighted, Handler.observed, processFrom, process, hearlier,
        hobservedEarlier]
      by_cases haccepts : middle.exception.any accepts = true
      · obtain ⟨succeeded, result, after, observedAfter, hrun, hobserved, hshows⟩ :=
          simulates_invoke hother monitor hnext callback (hcalled middle (by rintro ⟨⟩)) hshows
        simp only [haccepts, if_true, hrun, hobserved]
        exact ⟨_, after, observedAfter, rfl, rfl, hshows⟩
      · simp only [haccepts]
        exact ⟨middle, between, observedBetween, rfl, rfl, hshows⟩
  | group p handlers =>
      obtain ⟨result, after, observedAfter, hrun, hobserved, hshows⟩ := hinside ctx.enter s o hshows
      simp only [Handler.inside] at hrun hobserved
      simp only [Handler.sighted, Handler.observed, processFrom, process, hrun, hobserved]
      exact hnext _ after observedAfter hshows

/-- A walk with sightings runs side by side with the observed walk. -/
theorem simulates_walk {handlers : List (Handler E W)} {address : Address} {index : Nat}
    (hcalled : ∀ a h start ctx, (a, h) ∈ listing (fun _ => true) handlers address index →
      (h.opens → ctx.SelectedFrom start h) → P ⟨start, .called a ctx⟩)
    (ctx : Context E) :
    Simulates P earlier
      (walkFrom monitor.sighted (Handler.sightedAll handlers) address index ctx)
      (walk monitor.observed (Handler.observedAll handlers) address index ctx) := by
  induction handlers using Handler.chainInduction generalizing address index ctx with
  | nil =>
      intro s o hshows
      simp only [Handler.sightedAll, Handler.observedAll, walkFrom, walk]
      exact ⟨_, s, o, rfl, rfl, hshows⟩
  | cons h rest ihInside ihRest =>
      have hrest (ctx : Context E) := ihRest (fun a later start ctx hmem =>
        hcalled a later start ctx (mem_listing_cons.mpr (.inr hmem))) ctx
      have hinside (ctx : Context E) := ihInside (fun a inner start ctx hmem =>
        hcalled a inner start ctx (mem_listing_cons.mpr (.inl ⟨rfl, .inr hmem⟩))) ctx
      intro s o hshows
      simp only [Handler.sightedAll, Handler.observedAll, walkFrom, walk,
        Context.goesInto_observed, Context.goesInto_sighted, Handler.predicate_observed,
        Handler.predicate_sighted]
      by_cases hattached : ctx.position.attached = true
      · by_cases hinto : ctx.goesInto index h = true
        · have hown (middle : Context E)
              (hmiddle : h.opens → middle = ctx.select h.predicate index) :
              P ⟨ctx, .called (address ++ [index]) middle⟩ :=
            hcalled _ h _ _ (mem_listing_cons.mpr (.inl ⟨rfl, .inl ⟨rfl, rfl⟩⟩))
              fun hopens => ⟨index, hinto, hmiddle hopens⟩
          obtain ⟨result, after, observedAfter, hrun, hobserved, hshows⟩ :=
            simulates_process hother monitor hrest hown hinside _ _
              (hshows.monitor monitor (hother ⟨ctx, .entered (address ++ [index])⟩ rfl))
          simp only [hattached, hinto, if_true, hrun, hobserved]
          exact ⟨result, _, _, rfl, rfl, hshows.monitor monitor (hother _ rfl)⟩
        · simp only [hattached, hinto, if_true]
          exact hrest ctx s o hshows
      · simp only [hattached]
        exact ⟨ctx, s, o, rfl, rfl, hshows⟩

end Blocking

end Simulates

/-! ## Side by side with the suspending engine -/

namespace Task

/-- The first task does what the second one does, in worlds that are related by `R`. -/
inductive Simulates {V : Type} (R : V → W → Prop) : Task E V → Task E W → Prop
  | done (ctx : Context E) : Simulates R (done ctx) (done ctx)
  | act {update : V → V} {other : W → W} {resume : V → Task E V} {otherResume : W → Task E W}
      (hupdate : ∀ world otherWorld, R world otherWorld → R (update world) (other otherWorld))
      (hresume : ∀ world otherWorld, R world otherWorld →
        Simulates R (resume world) (otherResume otherWorld)) :
      Simulates R (act update resume) (act other otherResume)
  | pause (how : Pause) {resume : Task E V} {otherResume : Task E W}
      (hresume : Simulates R resume otherResume) :
      Simulates R (pause how resume) (pause how otherResume)
  | abort {resume : Task E V} {otherResume : Task E W} (hresume : Simulates R resume otherResume) :
      Simulates R (abort resume) (abort otherResume)
  | limited (limit : Duration) {part : Task E V} {otherPart : Task E W}
      {resume : Option (Context E) → Task E V} {otherResume : Option (Context E) → Task E W}
      (hpart : Simulates R part otherPart)
      (hresume : ∀ result, Simulates R (resume result) (otherResume result)) :
      Simulates R (limited limit part resume) (limited limit otherPart otherResume)

variable {V : Type} {R : V → W → Prop} {task : Task E V} {other : Task E W}

theorem Simulates.bind {onward : Context E → Task E V} {otherOnward : Context E → Task E W}
    (htask : Simulates R task other)
    (honward : ∀ ctx, Simulates R (onward ctx) (otherOnward ctx)) :
    Simulates R (task.bind onward) (other.bind otherOnward) := by
  induction htask with
  | done ctx => exact honward ctx
  | act hupdate _ ih => exact .act hupdate ih
  | pause how _ ih => exact .pause how ih
  | abort _ ih => exact .abort ih
  | limited limit hpart _ _ ihResume => exact .limited limit hpart ihResume

/-- The tasks end in the same way and at the same time, in related worlds. -/
theorem Simulates.run (htask : Simulates R task other) (deadlines : List Nat) (clock : Clock)
    {world : V} {otherWorld : W} (hworld : R world otherWorld) :
    ∃ ending later after otherAfter, task.run deadlines clock world = (ending, later, after) ∧
      other.run deadlines clock otherWorld = (ending, later, otherAfter) ∧
      R after otherAfter := by
  induction htask generalizing deadlines clock world otherWorld with
  | done ctx => exact ⟨_, _, _, _, rfl, rfl, hworld⟩
  | act hupdate _ ih =>
      have hupdated := hupdate _ _ hworld
      exact ih _ _ hupdated deadlines clock hupdated
  | pause how _ ih =>
      simp only [Task.run]
      cases clock.wait deadlines how with
      | ok later => exact ih deadlines later hworld
      | error stop => exact ⟨_, _, _, _, rfl, rfl, hworld⟩
  | abort _ ih => exact ih deadlines _ hworld
  | @limited limit part otherPart resume otherResume _ _ ihPart ihResume =>
      obtain ⟨ending, later, after, otherAfter, hrun, hother, hafter⟩ :=
        ihPart ((clock.now + limit.nanoseconds) :: deadlines) clock hworld
      simp only [Task.run, hrun, hother]
      cases ending with
      | finished ctx => exact ihResume (some ctx) deadlines later hafter
      | interrupted cause =>
          cases cause with
          | cancelled => exact ⟨_, _, _, _, rfl, rfl, hafter⟩
          | expired number =>
              cases number with
              | zero => exact ihResume none deadlines later hafter
              | succ number => exact ⟨_, _, _, _, rfl, rfl, hafter⟩

end Task

section Simulates

variable {P : Sighting E → Prop} {earlier : List (Notice E)}

theorem Task.simulates_notice (monitor : Monitor E W) {start : Context E} {notice : Notice E}
    (hnotice : P ⟨start, notice⟩) {task : Task E (Sighted E W)} {observed : Task E (Observed E W)}
    (htask : task.Simulates (Sighted.Shows P earlier) observed) :
    (Task.doing (monitor.sighted start notice) task).Simulates (Sighted.Shows P earlier)
      (Task.doing (monitor.observed notice) observed) :=
  .act (fun _ _ hshows => hshows.monitor monitor hnotice) fun _ _ _ => htask

theorem Plan.simulates_task {next succeed : Context E → Task E (Sighted E W)}
    {failed : Failure → Task E (Sighted E W)}
    {observedNext observedSucceed : Context E → Task E (Observed E W)}
    {observedFailed : Failure → Task E (Observed E W)}
    (hnext : ∀ ctx, (next ctx).Simulates (Sighted.Shows P earlier) (observedNext ctx))
    (hsucceed : ∀ ctx, (succeed ctx).Simulates (Sighted.Shows P earlier) (observedSucceed ctx))
    (hfailed : ∀ failure,
      (failed failure).Simulates (Sighted.Shows P earlier) (observedFailed failure))
    (plan : Plan E W) :
    (plan.sighted.task next succeed failed).Simulates (Sighted.Shows P earlier)
      (plan.observed.task observedNext observedSucceed observedFailed) := by
  induction plan with
  | done ctx => exact hsucceed ctx
  | fail failure => exact hfailed failure
  | panic payload => exact hfailed payload.failure
  | next ctx resume ih => exact (hnext ctx).bind ih
  | act update resume ih =>
      refine .act (fun _ _ hshows => hshows.change update) fun s o hshows => ?_
      dsimp only
      rw [hshows.world]
      exact ih o.world
  | pause how resume ih => exact .pause how ih
  | abort resume ih => exact .abort ih
  | limited limit ctx resume ih => exact .limited limit (hnext ctx) ih

namespace Suspending

variable (hother : ∀ sighting : Sighting E, sighting.notice.call? = none → P sighting)
  (monitor : Monitor E W)

include hother

theorem simulates_invoke {next succeed failed : Context E → Task E (Sighted E W)}
    {observedNext observedSucceed observedFailed : Context E → Task E (Observed E W)}
    (hnext : ∀ ctx, (next ctx).Simulates (Sighted.Shows P earlier) (observedNext ctx))
    (hsucceed : ∀ ctx, (succeed ctx).Simulates (Sighted.Shows P earlier) (observedSucceed ctx))
    (hfailed : ∀ ctx, (failed ctx).Simulates (Sighted.Shows P earlier) (observedFailed ctx))
    {address : Address} (callback : Callback E W) {start ctx : Context E}
    (hcalled : P ⟨start, .called address ctx⟩) :
    (invoke (monitor.sighted start) address (fun ctx => (callback ctx).sighted) next succeed failed
        ctx).Simulates (Sighted.Shows P earlier)
      (invoke monitor.observed address (fun ctx => (callback ctx).observed) observedNext
        observedSucceed observedFailed ctx) := by
  refine Task.simulates_notice monitor hcalled (Plan.simulates_task hnext ?_ ?_ (callback ctx))
  · intro result
    exact Task.simulates_notice monitor (hother _ rfl) (hsucceed result)
  · intro failure
    exact Task.simulates_notice monitor (hother _ rfl) (hfailed _)

variable [Routable E]

theorem simulates_process {next : Context E → Task E (Sighted E W)}
    {observedNext : Context E → Task E (Observed E W)}
    (hnext : ∀ ctx, (next ctx).Simulates (Sighted.Shows P earlier) (observedNext ctx))
    {h : Handler E W} {address : Address} {start ctx : Context E}
    (hcalled : ∀ middle, (h.opens → middle = ctx) → P ⟨start, .called address middle⟩)
    (hinside : ∀ ctx, (walkFrom monitor.sighted (Handler.sightedAll h.inside) address 0
      ctx).Simulates (Sighted.Shows P earlier)
        (walk monitor.observed (Handler.observedAll h.inside) address 0 ctx)) :
    (processFrom monitor.sighted h.sighted address next start ctx).Simulates
      (Sighted.Shows P earlier)
      (process monitor.observed h.observed address observedNext ctx) := by
  cases h with
  | on p callback =>
      exact simulates_invoke hother monitor hnext hnext hnext callback (hcalled ctx fun _ => rfl)
  | after p callback =>
      exact (hnext ctx).bind fun middle =>
        simulates_invoke hother monitor hnext .done .done callback (hcalled middle (by rintro ⟨⟩))
  | filter p callback =>
      exact simulates_invoke hother monitor hnext .done hnext callback (hcalled ctx fun _ => rfl)
  | recover p accepts callback clears =>
      apply (hnext ctx).bind
      intro middle
      by_cases haccepts : middle.exception.any accepts = true
      · simp only [haccepts, if_true]
        exact simulates_invoke hother monitor hnext (fun _ => .done _) .done callback
          (hcalled middle (by rintro ⟨⟩))
      · simp only [haccepts]
        exact .done middle
  | group p handlers => exact (hinside ctx.enter).bind fun _ => hnext _

/-- The task of a walk with sightings runs side by side with that of the observed walk. -/
theorem simulates_walk {handlers : List (Handler E W)} {address : Address} {index : Nat}
    (hcalled : ∀ a h start ctx, (a, h) ∈ listing (fun _ => true) handlers address index →
      (h.opens → ctx.SelectedFrom start h) → P ⟨start, .called a ctx⟩)
    (ctx : Context E) :
    (walkFrom monitor.sighted (Handler.sightedAll handlers) address index ctx).Simulates
      (Sighted.Shows P earlier)
      (walk monitor.observed (Handler.observedAll handlers) address index ctx) := by
  induction handlers using Handler.chainInduction generalizing address index ctx with
  | nil =>
      simp only [Handler.sightedAll, Handler.observedAll, walkFrom, walk]
      exact .done _
  | cons h rest ihInside ihRest =>
      have hrest (ctx : Context E) := ihRest (fun a later start ctx hmem =>
        hcalled a later start ctx (mem_listing_cons.mpr (.inr hmem))) ctx
      have hinside (ctx : Context E) := ihInside (fun a inner start ctx hmem =>
        hcalled a inner start ctx (mem_listing_cons.mpr (.inl ⟨rfl, .inr hmem⟩))) ctx
      simp only [Handler.sightedAll, Handler.observedAll, walkFrom, walk,
        Context.goesInto_observed, Context.goesInto_sighted, Handler.predicate_observed,
        Handler.predicate_sighted]
      by_cases hattached : ctx.position.attached = true
      · by_cases hinto : ctx.goesInto index h = true
        · have hown (middle : Context E)
              (hmiddle : h.opens → middle = ctx.select h.predicate index) :
              P ⟨ctx, .called (address ++ [index]) middle⟩ :=
            hcalled _ h _ _ (mem_listing_cons.mpr (.inl ⟨rfl, .inl ⟨rfl, rfl⟩⟩))
              fun hopens => ⟨index, hinto, hmiddle hopens⟩
          simp only [hattached, hinto, if_true]
          refine Task.simulates_notice monitor (hother _ rfl) ?_
          refine (simulates_process hother monitor hrest hown hinside).bind fun result => ?_
          exact Task.simulates_notice monitor (hother _ rfl) (.done result)
        · simp only [hattached, hinto, if_true]
          exact hrest ctx
      · simp only [hattached]
        exact .done ctx

end Suspending

end Simulates

/-! ## Dispatches -/

namespace Dispatcher

variable [Routable E] (d : Dispatcher E W) (monitor : Monitor E W) (event : E)
  (attributes : Attributes)

/-- What is sighted in a dispatch with the blocking engine, oldest first. -/
def sightings (world : W) : List (Sighting E) :=
  (Blocking.walkFrom monitor.sighted [d.root.sighted] [] 0 (startContext event attributes)
    ⟨monitor (.dispatching (Routable.path event)) world, []⟩).2.sightings

/-- What is sighted in a dispatch with the suspending engine, oldest first. -/
def suspendingSightings (clock : Clock) (world : W) : List (Sighting E) :=
  ((Suspending.walkFrom monitor.sighted [d.root.sighted] [] 0
    (startContext event attributes)).run [] clock
      ⟨monitor (.dispatching (Routable.path event)) world, []⟩).2.2.sightings

/-- The notices of a dispatch are what is sighted in it. What holds of every call for which a route
or a filter has been selected, and of every call of the other handlers, holds of all sightings. -/
theorem forall_sightings {P : Sighting E → Prop}
    (hother : ∀ sighting : Sighting E, sighting.notice.call? = none → P sighting)
    (hcalled : ∀ a h start ctx, (a, h) ∈ listing (fun _ => true) [d.root] [] 0 →
      (h.opens → ctx.SelectedFrom start h) → P ⟨start, .called a ctx⟩) :
    (∀ world,
      d.notices monitor event attributes world =
          .dispatching (Routable.path event) ::
            (d.sightings monitor event attributes world).map Sighting.notice ∧
        ∀ sighting ∈ d.sightings monitor event attributes world, P sighting) ∧
      ∀ clock world,
        d.suspendingNotices monitor event attributes clock world =
            .dispatching (Routable.path event) ::
              (d.suspendingSightings monitor event attributes clock world).map Sighting.notice ∧
          ∀ sighting ∈ d.suspendingSightings monitor event attributes clock world, P sighting := by
  have hstart (world : W) : Sighted.Shows P [.dispatching (Routable.path event)]
      (⟨monitor (.dispatching (Routable.path event)) world, []⟩ : Sighted E W)
      (monitor.observed (.dispatching (Routable.path event)) ⟨world, []⟩) :=
    ⟨rfl, rfl, List.forall_mem_nil _⟩
  constructor
  · intro world
    obtain ⟨result, after, observedAfter, hrun, hobserved, hshows⟩ :=
      Blocking.simulates_walk hother monitor hcalled (startContext event attributes) _ _
        (hstart world)
    rw [Handler.sightedAll, Handler.sightedAll] at hrun
    rw [Handler.observedAll, Handler.observedAll] at hobserved
    simp only [notices, process, observed, sightings, hrun, hobserved]
    exact ⟨hshows.notices, hshows.sound⟩
  · intro clock world
    obtain ⟨ending, later, after, observedAfter, hrun, hobserved, hshows⟩ :=
      (Suspending.simulates_walk hother monitor hcalled (startContext event attributes)).run []
        clock (hstart world)
    rw [Handler.sightedAll, Handler.sightedAll] at hrun
    rw [Handler.observedAll, Handler.observedAll] at hobserved
    simp only [suspendingNotices, processSuspending, task, observed, suspendingSightings,
      Task.doing, Task.run, hrun, hobserved]
    exact ⟨hshows.notices, hshows.sound⟩

end Dispatcher

end RequestRouting
