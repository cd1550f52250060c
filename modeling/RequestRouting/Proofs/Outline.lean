import RequestRouting.Proofs.Observation

/-!
# Outlines

Two trees of handlers count as the same up to waiting when their outlines are equal: the
outline of a plan keeps its contexts, its changes of the world, its calls of `next` and its
failures, and drops every stop. The blocking engine cannot tell a tree from its outline,
and trees with the same outline are assembled alike.
-/

namespace RequestRouting

variable {E W : Type}

/-- The plan without its stops: it never waits, never asks for an abort, and runs the
rest of the chain without a limit. -/
def Plan.outline : Plan E W → Plan E W
  | done ctx => done ctx
  | fail failure => fail failure
  | panic payload => panic payload
  | next ctx resume => next ctx fun result => (resume result).outline
  | act update resume => act update fun world => (resume world).outline
  | pause _ resume => resume.outline
  | abort resume => resume.outline
  | limited _ ctx resume => next ctx fun result => (resume (some result)).outline

/-- The blocking engine carries out a plan and its outline alike. -/
theorem Plan.run_outline (next : Context E → W → Context E × W) (plan : Plan E W)
    (world : W) : plan.outline.run next world = plan.run next world := by
  induction plan generalizing world with
  | done ctx => rfl
  | fail failure => rfl
  | panic payload => rfl
  | next ctx resume ih => exact ih _ _
  | act update resume ih => exact ih _ _
  | pause how resume ih => exact ih world
  | abort resume ih => exact ih world
  | limited limit ctx resume ih => exact ih _ _

namespace Handler

mutual

/-- The handler with the outlines of its callbacks. -/
def outline : Handler E W → Handler E W
  | on p callback => on p fun ctx => (callback ctx).outline
  | after p callback => after p fun ctx => (callback ctx).outline
  | filter p callback => filter p fun ctx => (callback ctx).outline
  | recover p accepts callback clears =>
      recover p accepts (fun ctx => (callback ctx).outline) clears
  | group p handlers => group p (outlineAll handlers)

/-- The handlers of a chain with the outlines of their callbacks. -/
def outlineAll : List (Handler E W) → List (Handler E W)
  | [] => []
  | h :: rest => outline h :: outlineAll rest

end

@[simp]
theorem predicate_outline (h : Handler E W) : h.outline.predicate = h.predicate := by
  cases h <;> rfl

@[simp]
theorem isTerminal_outline (h : Handler E W) : h.outline.isTerminal = h.isTerminal := by
  cases h <;> rfl

/-- Outlining a handler does not touch its pattern, so the outline of a handler can be
mounted where the handler can. -/
theorem mount_outline (outer : Pattern) (h : Handler E W)
    (hinside : mountAll outer (outlineAll h.inside) =
      (mountAll outer h.inside).map outlineAll) :
    mount outer h.outline = (mount outer h).map outline := by
  cases h with
  | on p _ | after p _ | filter p _ | recover p _ _ _ =>
      simp only [outline, mount]
      cases p.mount outer <;> rfl
  | group p handlers =>
      simp only [inside] at hinside
      simp only [outline, mount, hinside]
      cases p.mount outer with
      | error failure => rfl
      | ok mounted => cases mountAll outer handlers <;> rfl

/-- The outline of a chain can be mounted where the chain can. -/
theorem mountAll_outlineAll (outer : Pattern) (handlers : List (Handler E W)) :
    mountAll outer (outlineAll handlers) = (mountAll outer handlers).map outlineAll := by
  induction handlers using chainInduction with
  | nil =>
      simp only [outlineAll, mountAll]
      rfl
  | cons h rest ihInside ihRest =>
      simp only [outlineAll, mountAll, mount_outline outer h ihInside, ihRest]
      cases mount outer h with
      | error failure => rfl
      | ok mounted => cases mountAll outer rest <;> rfl

end Handler

/-- A context goes into the outline of a handler whenever it goes into the handler. -/
@[simp]
theorem Context.goesInto_outline [Routable E] (ctx : Context E) (index : Nat)
    (h : Handler E W) : ctx.goesInto index h.outline = ctx.goesInto index h := by
  simp [Context.goesInto, Handler.runsOnFailure]

namespace Blocking

variable (monitor : Monitor E W)

theorem invoke_outline (address : Address) (callback : Callback E W)
    (next : Context E → W → Context E × W) (ctx : Context E) (world : W) :
    invoke monitor address (fun ctx => (callback ctx).outline) next ctx world =
      invoke monitor address callback next ctx world := by
  simp only [invoke, Plan.run_outline]

variable [Routable E]

/-- The blocking engine walks a chain and its outline alike. -/
theorem walk_outlineAll (handlers : List (Handler E W)) :
    walk monitor (Handler.outlineAll handlers) = walk monitor handlers := by
  induction handlers using Handler.chainInduction with
  | nil => rfl
  | cons h rest ihInside ihRest =>
      have hprocess (address : Address) (next : Context E → W → Context E × W)
          (ctx : Context E) (world : W) :
          process monitor h.outline address next ctx world =
            process monitor h address next ctx world := by
        cases h with
        | group p handlers =>
            simp only [Handler.inside] at ihInside
            simp only [Handler.outline, process, ihInside]
        | on _ _ | after _ _ | filter _ _ | recover _ _ _ _ =>
            simp only [Handler.outline, process, invoke_outline]
      funext address index ctx world
      simp only [Handler.outlineAll, walk, Context.goesInto_outline,
        Handler.predicate_outline, ihRest, hprocess]

end Blocking

/-! ## Dispatches -/

/-- Observing a plan and outlining it can be done in either order. -/
theorem Plan.outline_observed (plan : Plan E W) :
    plan.observed.outline = plan.outline.observed := by
  induction plan with
  | done ctx => rfl
  | fail failure => rfl
  | panic payload => rfl
  | next ctx resume ih => exact congrArg (Plan.next ctx) (funext ih)
  | act update resume ih => exact congrArg (Plan.act _) (funext fun o => ih o.world)
  | pause how resume ih => exact ih
  | abort resume ih => exact ih
  | limited limit ctx resume ih =>
      exact congrArg (Plan.next ctx) (funext fun result => ih (some result))

namespace Handler

/-- Observing a chain and outlining it can be done in either order. -/
theorem outlineAll_observedAll (handlers : List (Handler E W)) :
    outlineAll (observedAll handlers) = observedAll (outlineAll handlers) := by
  induction handlers using chainInduction with
  | nil => rfl
  | cons h rest ihInside ihRest =>
      simp only [observedAll, outlineAll, ihRest, List.cons.injEq, and_true]
      cases h with
      | group p handlers => exact congrArg (group p) ihInside
      | on _ _ | after _ _ | filter _ _ | recover _ _ _ _ =>
          simp only [observed, outline, Plan.outline_observed]

end Handler

namespace Dispatcher

variable {d twin : Dispatcher E W}

/-- Whether two dispatchers have the same outline: the same handlers, whose callbacks do
the same and differ at most in where they wait. -/
def SameOutline (d twin : Dispatcher E W) : Prop :=
  Handler.outlineAll [d.root] = Handler.outlineAll [twin.root]

/-- Observed dispatchers have the same outline when the dispatchers have. -/
theorem SameOutline.observed (hsame : SameOutline d twin) :
    SameOutline d.observed twin.observed := by
  have hroots := congrArg Handler.observedAll hsame
  rw [← Handler.outlineAll_observedAll, ← Handler.outlineAll_observedAll] at hroots
  exact hroots

/-- Chains with the same outline are assembled alike: both are refused for the same
reason, or they give dispatchers with the same outline. -/
theorem ofHandlers_outline {handlers suspending : List (Handler E W)}
    (hsame : Handler.outlineAll suspending = Handler.outlineAll handlers) :
    (∃ error, ofHandlers handlers = .error error ∧ ofHandlers suspending = .error error) ∨
      ∃ d twin, ofHandlers handlers = .ok d ∧ ofHandlers suspending = .ok twin ∧
        SameOutline d twin := by
  have hmount := congrArg (Handler.mountAll (Predicate.any : Predicate E).pattern) hsame
  rw [Handler.mountAll_outlineAll, Handler.mountAll_outlineAll] at hmount
  simp only [ofHandlers, Handler.groupOf]
  cases hleft : Handler.mountAll (Predicate.any : Predicate E).pattern handlers with
  | error failure =>
      rw [hleft] at hmount
      cases hright : Handler.mountAll (Predicate.any : Predicate E).pattern suspending with
      | error other =>
          rw [hright] at hmount
          cases hmount
          exact .inl ⟨failure, rfl, rfl⟩
      | ok mounted =>
          rw [hright] at hmount
          cases hmount
  | ok mounted =>
      rw [hleft] at hmount
      cases hright : Handler.mountAll (Predicate.any : Predicate E).pattern suspending with
      | error other =>
          rw [hright] at hmount
          cases hmount
      | ok mountedTwin =>
          rw [hright] at hmount
          have houtline := Except.ok.inj hmount
          refine .inr ⟨⟨.group _ mounted⟩, ⟨.group _ mountedTwin⟩, rfl, rfl, ?_⟩
          simp only [SameOutline, Handler.outlineAll, Handler.outline, houtline]

variable [Routable E] (monitor : Monitor E W) (event : E) (attributes : Attributes)

/-- With the blocking engine, an outline decides about a dispatch. -/
theorem SameOutline.process_eq (hsame : SameOutline d twin) (world : W) :
    d.process monitor event attributes world =
      twin.process monitor event attributes world := by
  have hwalk := Blocking.walk_outlineAll monitor [d.root]
  rw [hsame, Blocking.walk_outlineAll] at hwalk
  simp only [process, hwalk]

end Dispatcher

end RequestRouting
