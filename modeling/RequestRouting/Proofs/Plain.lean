import RequestRouting.Proofs.Conduct
import RequestRouting.Proofs.Tour

/-!
# Callbacks that do no more than their part

A plain callback of a route returns the context that it gets, answered or not. A plain
filter runs the rest of its chain once and returns the result. All other plain callbacks
return the context that they get. Where all callbacks are plain, no failure comes up, and
what a handler calls follows from what the rest of its chain calls.
-/

namespace RequestRouting

variable {E W : Type}

namespace Plan

/-- The plan does not run the rest of the chain and returns a context as wanted. -/
def Returns (wanted : Context E → Prop) : Plan E W → Prop
  | done ctx => wanted ctx
  | fail _ | panic _ | next _ _ | limited _ _ _ => False
  | act _ resume => ∀ world, (resume world).Returns wanted
  | pause _ resume | abort resume => resume.Returns wanted

/-- The plan runs the rest of the chain once, from the context up to its attributes, and
returns the result. -/
def Wraps (ctx : Context E) : Plan E W → Prop
  | next start resume =>
      (∃ attributes, start = { ctx with attributes }) ∧
        ∀ result, (resume result).Returns fun returned => returned = result
  | limited _ start resume =>
      (∃ attributes, start = { ctx with attributes }) ∧
        ∀ result, (resume (some result)).Returns fun returned => returned = result
  | done _ | fail _ | panic _ => False
  | act _ resume => ∀ world, (resume world).Wraps ctx
  | pause _ resume | abort resume => resume.Wraps ctx

variable {plan : Plan E W} {ctx : Context E} {wanted : Context E → Prop}

theorem Returns.proceedsAtMost (hreturns : plan.Returns wanted) : plan.ProceedsAtMost 0 := by
  induction plan with
  | done => trivial
  | fail | panic | next | limited => exact hreturns.elim
  | act update resume ih => exact fun world => ih world (hreturns world)
  | pause how resume ih => exact ih hreturns
  | abort resume ih => exact ih hreturns

theorem Returns.failsOnlyBefore (hreturns : plan.Returns wanted) (proceeded : Bool) :
    plan.FailsOnlyBefore proceeded := by
  induction plan with
  | done => trivial
  | fail | panic | next | limited => exact hreturns.elim
  | act update resume ih => exact fun world => ih world (hreturns world)
  | pause how resume ih => exact ih hreturns
  | abort resume ih => exact ih hreturns

theorem Wraps.proceedsAtMost (hwraps : plan.Wraps ctx) : plan.ProceedsAtMost 1 := by
  induction plan with
  | done | fail | panic => exact hwraps.elim
  | next start resume => exact fun result => (hwraps.2 result).proceedsAtMost
  | limited limit start resume => exact fun result => (hwraps.2 result).proceedsAtMost
  | act update resume ih => exact fun world => ih world (hwraps world)
  | pause how resume ih => exact ih hwraps
  | abort resume ih => exact ih hwraps

theorem Wraps.failsOnlyBefore (hwraps : plan.Wraps ctx) (proceeded : Bool) :
    plan.FailsOnlyBefore proceeded := by
  induction plan with
  | done | fail | panic => exact hwraps.elim
  | next start resume => exact fun result => (hwraps.2 result).failsOnlyBefore true
  | limited limit start resume => exact fun result => (hwraps.2 result).failsOnlyBefore true
  | act update resume ih => exact fun world => ih world (hwraps world)
  | pause how resume ih => exact ih hwraps
  | abort resume ih => exact ih hwraps

namespace Runs

variable {rest : Course E} {outcome : Except Failure (Context E)} {seen : List (Notice E)}

theorem of_returns (hruns : plan.Runs rest outcome seen) (hreturns : plan.Returns wanted) :
    ∃ result, outcome = .ok result ∧ wanted result ∧ seen = [] := by
  induction hruns with
  | done result => exact ⟨result, rfl, hreturns, rfl⟩
  | fail | panic | next | limited => exact hreturns.elim
  | act update world _ ih => exact ih (hreturns world)
  | pause how _ ih => exact ih hreturns
  | abort _ ih => exact ih hreturns

theorem of_wraps (hruns : plan.Runs rest outcome seen) (hwraps : plan.Wraps ctx) :
    ∃ attributes result, outcome = .ok result ∧ rest { ctx with attributes } result seen := by
  induction hruns with
  | done | fail | panic => exact hwraps.elim
  | @next start middle resume outcome first second hrest hresume _ =>
      obtain ⟨⟨attributes, rfl⟩, hback⟩ := hwraps
      obtain ⟨result, rfl, rfl, rfl⟩ := hresume.of_returns (hback middle)
      rw [List.append_nil]
      exact ⟨attributes, result, rfl, hrest⟩
  | @limited limit start middle resume outcome first second hrest hresume _ =>
      obtain ⟨⟨attributes, rfl⟩, hback⟩ := hwraps
      obtain ⟨result, rfl, rfl, rfl⟩ := hresume.of_returns (hback middle)
      rw [List.append_nil]
      exact ⟨attributes, result, rfl, hrest⟩
  | act update world _ ih => exact ih (hwraps world)
  | pause how _ ih => exact ih hwraps
  | abort _ ih => exact ih hwraps

end Runs

end Plan

namespace Handler

/-- The callback of the handler does no more than its part: a route may answer, a filter
runs the rest of the chain once and returns the result, and all others return the context
that they get. -/
def Plain : Handler E W → Prop
  | on _ callback =>
      ∀ ctx, (callback ctx).Returns fun result => result = ctx ∨ result = ctx.withHandled true
  | after _ callback | recover _ _ callback _ =>
      ∀ ctx, (callback ctx).Returns fun result => result = ctx
  | filter _ callback => ∀ ctx, (callback ctx).Wraps ctx
  | group _ _ => True

theorem Plain.proceedsSafely {h : Handler E W} (hplain : h.Plain) (rest : List (Handler E W)) :
    h.ProceedsSafely rest := by
  cases h with
  | on | after | recover =>
      exact ⟨fun ctx => (hplain ctx).proceedsAtMost, .inl trivial⟩
  | filter =>
      refine ⟨fun ctx => (hplain ctx).proceedsAtMost, .inl fun ctx => ?_⟩
      exact (hplain ctx).failsOnlyBefore false
  | group => exact ⟨trivial, .inl trivial⟩

/-! What a handler does whose callback does no more than its part. -/

namespace Does

variable {rest inner : Course E} {address : Address} {p : Predicate E}
  {callback : Callback E W} {ctx result : Context E} {seen : List (Notice E)}

theorem on_plain (hdoes : (Handler.on p callback).Does rest inner address ctx result seen)
    (hplain : (Handler.on p callback).Plain) :
    ∃ middle later, (middle = ctx ∨ middle = ctx.withHandled true) ∧ rest middle result later ∧
      seen = .called address ctx :: .returned address middle :: later := by
  cases hdoes with
  | @on _ _ _ _ _ _ later hcall hrest =>
      obtain ⟨hruns⟩ := hcall
      obtain ⟨middle, rfl, hmiddle, rfl⟩ := hruns.of_returns (hplain ctx)
      exact ⟨middle, later, hmiddle, hrest, rfl⟩

theorem after_plain (hdoes : (Handler.after p callback).Does rest inner address ctx result seen)
    (hplain : (Handler.after p callback).Plain) :
    ∃ first, rest ctx result first ∧
      seen = first ++ [.called address result, .returned address result] := by
  cases hdoes with
  | @after _ _ _ middle _ first _ hrest hcall =>
      obtain ⟨hruns⟩ := hcall
      obtain ⟨_, rfl, rfl, rfl⟩ := hruns.of_returns (hplain middle)
      exact ⟨first, hrest, rfl⟩

theorem filter_plain (hdoes : (Handler.filter p callback).Does rest inner address ctx result seen)
    (hplain : (Handler.filter p callback).Plain) :
    ∃ attributes between, rest { ctx with attributes } result between ∧
      seen = .called address ctx :: (between ++ [.returned address result]) := by
  cases hdoes with
  | filter hcall =>
      obtain ⟨hruns⟩ := hcall
      obtain ⟨attributes, _, heq, hrest⟩ := hruns.of_wraps (hplain ctx)
      cases heq
      exact ⟨attributes, _, hrest, rfl⟩
  | failedFilter hcall _ =>
      obtain ⟨hruns⟩ := hcall
      obtain ⟨_, _, heq, _⟩ := hruns.of_wraps (hplain ctx)
      cases heq

end Does

end Handler

/-- The handlers whose callbacks are called, oldest call first. -/
abbrev calleesOf (seen : List (Notice E)) : List Address := (callsOf seen).map Prod.fst

theorem calleesOf_append (first second : List (Notice E)) :
    calleesOf (first ++ second) = calleesOf first ++ calleesOf second := by
  rw [calleesOf, callsOf, List.filterMap_append, List.map_append]

theorem calleesOf_bracket (address : Address) (between : List (Notice E)) :
    calleesOf (.entered address :: (between ++ [.left address])) = calleesOf between := by
  have hlast : calleesOf (E := E) [.left address] = [] := rfl
  have hfirst : calleesOf (.entered address :: (between ++ [.left address])) =
      calleesOf (between ++ [.left address]) := rfl
  rw [hfirst, calleesOf_append, hlast, List.append_nil]

theorem calleesOf_call (address : Address) (ctx returned : Context E)
    (later : List (Notice E)) :
    calleesOf (.called address ctx :: .returned address returned :: later) =
      address :: calleesOf later := rfl

/-! ## Contexts without a failure -/

/-- The context is about the event, without a failure, and answered or not. -/
structure Context.Calm (event : E) (handled : Bool) (ctx : Context E) : Prop where
  event : ctx.event = event
  exception : ctx.exception = none
  handled : ctx.handled = handled

/-- The context waits for the handlers from `index` on, of a chain that took over an
answered request or not. -/
structure Position.Awaits (index : Nat) (resumed : Bool) (position : Position) : Prop where
  attached : position.attached = true
  cursor : position.cursor ≤ index
  resumed : position.resumed = resumed

section Calm

variable {event : E} {handled resumed : Bool} {ctx : Context E} {index : Nat}

theorem Context.Calm.answer (hcalm : ctx.Calm event handled) :
    (ctx.withHandled true).Calm event true :=
  ⟨hcalm.event, hcalm.exception, rfl⟩

theorem Context.Calm.enter (hcalm : ctx.Calm event handled) : ctx.enter.Calm event handled :=
  ⟨hcalm.event, hcalm.exception, hcalm.handled⟩

theorem Context.Calm.leave (hcalm : ctx.Calm event handled) (parent : Position) :
    (ctx.leave parent).Calm event handled :=
  ⟨hcalm.event, hcalm.exception, hcalm.handled⟩

theorem Position.Awaits.skip {position : Position} (hawaits : position.Awaits index resumed) :
    position.Awaits (index + 1) resumed :=
  ⟨hawaits.attached, Nat.le_succ_of_le hawaits.cursor, hawaits.resumed⟩

theorem Position.awaits_enter (hcalm : ctx.Calm event handled) :
    ctx.enter.position.Awaits 0 handled :=
  ⟨rfl, Nat.le_refl 0, hcalm.handled⟩

theorem Position.Awaits.leave {parent : Position} (hawaits : parent.Awaits index resumed)
    (hcalm : ctx.Calm event handled) :
    (ctx.leave parent).position.Awaits index (resumed || handled) :=
  ⟨hawaits.attached, hawaits.cursor, by rw [← hawaits.resumed, ← hcalm.handled]; rfl⟩

variable [Routable E]

theorem Context.Calm.goesInto (hcalm : ctx.Calm event handled)
    (hawaits : ctx.position.Awaits index resumed) (h : Handler E W) :
    ctx.goesInto index h =
      ((!handled || (resumed && !h.isTerminal)) && h.predicate.accepts event) := by
  simp [Context.goesInto, hcalm.event, hcalm.exception, hcalm.handled, hawaits.resumed,
    hawaits.cursor]

theorem Context.Calm.select (hcalm : ctx.Calm event handled) (p : Predicate E) (index : Nat) :
    (ctx.select p index).Calm event handled :=
  ⟨hcalm.event, hcalm.exception, hcalm.handled⟩

theorem Position.Awaits.select (hawaits : ctx.position.Awaits index resumed)
    (p : Predicate E) : (ctx.select p index).position.Awaits (index + 1) resumed :=
  ⟨hawaits.attached, Nat.le_refl _, hawaits.resumed⟩

end Calm

namespace Handler

/-- What a handler calls that wraps the rest of its chain, other than a group. The rest
of the chain is run once, and its calls are `calls`. -/
theorem Does.wrapper {rest inner : Course E} {h : Handler E W} {address : Address}
    {event : E} {handled final : Bool} {ctx result : Context E} {seen : List (Notice E)}
    {calls : List Address} (hdoes : h.Does rest inner address ctx result seen)
    (hplain : h.Plain) (hterminal : h.isTerminal = false) (hcallback : h.callback?.isSome)
    (hcalm : ctx.Calm event handled)
    (hrest : ∀ start result first, start.Calm event handled → start.position = ctx.position →
      rest start result first → first ⊆ seen →
      calleesOf first = calls ∧ result.Calm event final) :
    calleesOf seen =
        (if h.opens then [address] else []) ++ calls ++ (if h.closes then [address] else []) ∧
      result.Calm event final := by
  cases h with
  | on => simp [isTerminal] at hterminal
  | after p callback =>
      obtain ⟨first, hfirst, rfl⟩ := hdoes.after_plain hplain
      obtain ⟨hcalls, hresult⟩ := hrest ctx result first hcalm rfl hfirst (by simp)
      refine ⟨?_, hresult⟩
      rw [calleesOf_append, hcalls]
      rfl
  | filter p callback =>
      obtain ⟨attributes, between, hbetween, rfl⟩ := hdoes.filter_plain hplain
      have hstart : ({ ctx with attributes } : Context E).Calm event handled :=
        ⟨hcalm.event, hcalm.exception, hcalm.handled⟩
      obtain ⟨hcalls, hresult⟩ := hrest _ result between hstart rfl hbetween <| by
        intro notice hnotice
        simp [hnotice]
      have hopened : calleesOf (.called address ctx :: (between ++ [.returned address result])) =
          address :: calleesOf (between ++ [.returned address result]) := rfl
      rw [hopened, calleesOf_append, hcalls]
      exact ⟨by simp [opens, closes, Notice.call?], hresult⟩
  | recover p accepts callback clears =>
      cases hdoes with
      | passed hpassed _ =>
          obtain ⟨hcalls, hresult⟩ := hrest ctx result seen hcalm rfl hpassed fun _ => id
          refine ⟨?_, hresult⟩
          simp [opens, closes, hcalls]
      | @recovered _ _ _ _ _ middle _ first _ hpassed haccepts _ =>
          -- No failure comes back that could be taken care of.
          obtain ⟨_, hmiddle⟩ := hrest ctx middle first hcalm rfl hpassed (by simp)
          rw [hmiddle.exception] at haccepts
          cases haccepts
  | group => cases hcallback

end Handler

end RequestRouting
