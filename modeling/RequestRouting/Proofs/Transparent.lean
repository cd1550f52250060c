import Mathlib.Data.List.Forall2
import RequestRouting.Proofs.Insertion
import RequestRouting.Proofs.Oblivious

/-!
# Filters that nothing notices

A filter that runs the rest of its chain from the context that it gets, and returns what
comes back, can be put anywhere into a tree where the parameters of its pattern are none. It
moves the handlers behind it by one number, and with it all cursors, so the two dispatches
go through different positions. Callbacks that are oblivious to positions do the same in
both, and `Blocking.walk_inserted` carries that through the tree, by induction on how the
filter has been put in.

The filter itself may leave traces in the world, as the one that logs requests does, as long
as callbacks cannot see them.
-/

namespace RequestRouting

open Handler (Throughout throughout_nil throughout_cons)

variable {E W : Type}

/-! ## Passing on -/

/-- Changes of the second world that keep it related to the first one. -/
def Unseen (S : W → W → Prop) (update : W → W) : Prop :=
  ∀ world other, S world other → S world (update other)

namespace Plan

/-- The plan returns the context and leaves nothing that is seen. -/
def Yields (S : W → W → Prop) (result : Context E) : Plan E W → Prop
  | done ctx => ctx = result
  | act update resume => Unseen S update ∧ ∀ world, (resume world).Yields S result
  | fail _ | panic _ | next _ _ | pause _ _ | abort _ | limited _ _ _ => False

/-- The plan runs the rest of the chain once, from the context, returns the result, and
leaves nothing that is seen. -/
def PassesOn (S : W → W → Prop) (ctx : Context E) : Plan E W → Prop
  | next start resume => start = ctx ∧ ∀ result, (resume result).Yields S result
  | act update resume => Unseen S update ∧ ∀ world, (resume world).PassesOn S ctx
  | done _ | fail _ | panic _ | pause _ _ | abort _ | limited _ _ _ => False

theorem proceed_passesOn (S : W → W → Prop) (ctx : Context E) :
    (proceed ctx : Plan E W).PassesOn S ctx :=
  ⟨rfl, fun _ => rfl⟩

variable {S : W → W → Prop} {plan : Plan E W} {ctx : Context E} {world otherWorld : W}
  (next : Context E → W → Context E × W)

theorem Yields.run {result : Context E} (hyields : plan.Yields S result)
    (hworld : S world otherWorld) :
    ∃ after, plan.run next otherWorld = (.ok result, after) ∧ S world after := by
  induction plan generalizing otherWorld with
  | done ctx =>
      cases hyields
      exact ⟨otherWorld, rfl, hworld⟩
  | act update resume ih => exact ih _ (hyields.2 _) (hyields.1 _ _ hworld)
  | fail | panic | next | pause | abort | limited => exact hyields.elim

variable {next}

/-- A plan that passes on comes to what the rest of the chain comes to. -/
theorem PassesOn.run {R : Position → Position → Prop} {ending : Context E × W}
    (hpasses : plan.PassesOn S ctx) (hworld : S world otherWorld)
    (hnext : ∀ otherWorld, S world otherWorld → EndsAlike R S ending (next ctx otherWorld)) :
    ∃ returned after, plan.run next otherWorld = (.ok returned, after) ∧
      EndsAlike R S ending (returned, after) := by
  induction plan generalizing otherWorld with
  | next start resume _ =>
      obtain ⟨rfl, hback⟩ := hpasses
      have hends := hnext otherWorld hworld
      obtain ⟨after, hrun, hafter⟩ := (hback _).run next hends.world
      exact ⟨_, after, hrun, hends.context, hafter⟩
  | act update resume ih => exact ih _ (hpasses.2 _) (hpasses.1 _ _ hworld)
  | done | fail | panic | pause | abort | limited => exact hpasses.elim

end Plan

/-! ## Walks with one handler more -/

/-- An insertion does not change the order of the handlers. -/
theorem keepsOrder_renumber (place : Address) : KeepsOrder place.renumber := by
  intro j k
  unfold Address.renumber
  split
  · split <;> split <;> omega
  · exact Iff.rfl

/-- A context that has gone into the handler that was put in still sees the handlers behind
it, and has no parameters more if the pattern has none. -/
theorem Context.Alike.select_inserted [Routable E] {index : Nat} {ctx other : Context E}
    (halike : ctx.Alike (Position.Sees (Address.renumber [index]) index) other)
    {new : Handler E W} (hinto : other.goesInto index new) {p : Predicate E}
    (hpattern : p.pattern.hasCaptures = false) :
    ctx.Alike (Position.Sees (Address.renumber [index]) index) (other.select p index) where
  event := halike.event
  attributes := by simp [Context.select, hpattern, halike.attributes]
  exception := halike.exception
  handled := halike.handled
  position := by
    refine ⟨halike.position.attached, halike.position.resumed, fun hattached j hj => ?_⟩
    have hahead := halike.position.ahead hattached index (Nat.le_refl _)
    rw [Address.renumber_of_le (Nat.le_refl _)] at hahead
    have hcursor : other.position.cursor ≤ index := by
      simp only [Context.goesInto, Bool.and_eq_true, decide_eq_true_eq] at hinto
      exact hinto.1.1.1
    have hbehind : ctx.position.cursor ≤ index := hahead.mpr (Nat.le_succ_of_le hcursor)
    rw [Address.renumber_of_le hj]
    exact iff_of_true (Nat.le_trans hbehind hj) (Nat.succ_le_succ hj)

namespace Blocking

variable [Routable E] {monitor : Monitor E W} {S : W → W → Prop}

theorem walk_of_detached {handlers : List (Handler E W)} {address : Address} {index : Nat}
    {ctx : Context E} {world : W} (hdetached : ctx.position.attached = false) :
    walk monitor handlers address index ctx world = (ctx, world) := by
  cases handlers with
  | nil => rw [walk, hdetached, if_neg Bool.false_ne_true]
  | cons h rest => rw [walk, hdetached, if_neg Bool.false_ne_true]

variable {p : Predicate E} {callback : Callback E W} {spot : Address}
  (hunseen : ∀ notice : Notice E, notice.address? = some spot → Unseen S (monitor notice))
  (hpasses : ∀ ctx, (callback ctx).PassesOn S ctx)

include hunseen hpasses

/-- A filter that passes on comes to what the rest of its chain comes to, where its own
notices are not seen. -/
theorem process_passesOn {R : Position → Position → Prop} {ctx : Context E}
    {next : Context E → W → Context E × W} {ending : Context E × W} {world otherWorld : W}
    (hworld : S world otherWorld)
    (hnext : ∀ otherWorld, S world otherWorld → EndsAlike R S ending (next ctx otherWorld)) :
    EndsAlike R S ending (process monitor (.filter p callback) spot next ctx otherWorld) := by
  have hcalled := hunseen (.called spot ctx) rfl _ _ hworld
  obtain ⟨returned, after, hrun, hresult, hafter⟩ := (hpasses ctx).run hcalled hnext
  simp only [process, invoke, hrun]
  exact ⟨hresult, hunseen (.returned spot returned) rfl _ _ hafter⟩

variable (hpattern : p.pattern.hasCaptures = false)

include hpattern

/-- A filter that has been put in front of handlers passes on to them. -/
theorem walk_filter_alike {rest : List (Handler E W)} {address : Address} {index : Nat}
    (hspot : spot = address ++ [index])
    (hrest : RunsAlike (Position.Sees (Address.renumber [index]) index)
      (Position.Sees (Address.renumber [index]) 0) S (walk monitor rest address index)
      (walk monitor rest address (index + 1))) :
    RunsAlike (Position.Sees (Address.renumber [index]) index)
      (Position.Sees (Address.renumber [index]) 0) S (walk monitor rest address index)
      (walk monitor (.filter p callback :: rest) address index) := by
  intro ctx otherCtx hctx world otherWorld hworld
  subst hspot
  rw [walk.eq_def monitor (_ :: _)]
  by_cases hattached : otherCtx.position.attached
  · simp only [if_pos hattached]
    by_cases hinto : otherCtx.goesInto index (.filter p callback)
    · rw [if_pos hinto]
      have hentered := hunseen (.entered (address ++ [index])) rfl _ _ hworld
      have hselected := hctx.select_inserted hinto hpattern
      have hends := process_passesOn (p := p) hunseen hpasses hentered
        fun otherWorld hworld => hrest hselected hworld
      exact ⟨hends.context, hunseen (.left (address ++ [index])) rfl _ _ hends.world⟩
    · rw [if_neg hinto]
      exact hrest hctx hworld
  · simp only [if_neg hattached]
    rw [← hctx.position.attached, Bool.not_eq_true] at hattached
    rw [walk_of_detached hattached]
    exact ⟨hctx.mono (Position.Sees.of_detached hattached), hworld⟩

/-- Walks through a chain and through the same chain with a filter put in are alike, if the
filter extracts no parameters and its callback passes on. The induction is on how the filter
has been put in: in front of it and around it the chains are the same, and behind it the
second one is numbered differently. -/
theorem walk_inserted (hmonitor : monitor.Keeps (Address.past spot) S)
    {around : Pattern → Prop} {index : Nat} {place : Address}
    {handlers extended : List (Handler E W)}
    (hinserted : Handler.Inserted around (.filter p callback) index place handlers extended)
    (hoblivious : Throughout (fun h _ => h.Oblivious S) handlers)
    {address : Address} (hspot : spot = address ++ place) :
    RunsAlike (Position.Sees place.renumber index) (Position.Sees place.renumber 0) S
      (walk monitor handlers address index) (walk monitor extended address index) := by
  induction hinserted generalizing address with
  | here index rest =>
      refine walk_filter_alike hunseen hpasses hpattern hspot ?_
      subst hspot
      refine walk_alike hmonitor hoblivious (keepsOrder_renumber _) (fun k => ?_)
        (Address.past_behind address index)
      rw [Address.renumber_of_le (Nat.le_add_right index k), Nat.add_right_comm]
  | later h hinserted ih =>
      obtain ⟨hhere, hinside, hrest⟩ := throughout_cons.mp hoblivious
      obtain ⟨number, inner, rfl, hlt⟩ := hinserted.exists_cons
      refine walk_cons_alike_of_oblivious hmonitor (keepsOrder_renumber _)
        (Address.renumber_of_lt hlt) ?_ (ih hrest hspot) hhere ?_
      · rw [hspot, Address.past_in_front address hlt]
      · -- Inside a handler in front of the filter nothing is numbered differently.
        refine walk_alike hmonitor hinside keepsOrder_id (fun _ => rfl) fun k a => ?_
        rw [hspot, List.append_assoc, List.singleton_append, Address.past_in_front address hlt]
  | @inside index place q handlers extended rest _ hinserted ih =>
      obtain ⟨_, hinside, hrest⟩ := throughout_cons.mp hoblivious
      have hplace := hinserted.ne_nil
      have hspotInside : spot = (address ++ [index]) ++ place := by simp [hspot]
      refine walk_group_alike hmonitor (keepsOrder_renumber _) (Address.renumber_inside hplace)
        ?_ ?_ (ih hinside hspotInside)
      · rw [hspot, Address.past_around address hplace]
      · -- The filter is inside the group, so the chain of the group has kept its numbers.
        refine walk_alike hmonitor hrest (keepsOrder_renumber _) (fun k => ?_) fun k a => ?_
        · rw [Address.renumber_inside hplace]
        · rw [hspot, Address.past_beside address hplace (by omega)]

end Blocking

/-! ## Calls -/

/-- The second call is the first one in a tree that has got a handler at `spot`: it is a call
of the same handler, and the contexts agree. -/
def Moved (spot : Address) (call other : Address × Context E) : Prop :=
  other.1 = spot.past call.1 ∧ call.2.Agrees other.2

/-- The calls of all handlers but the one at `spot`. -/
abbrev callsBut (spot : Address) (seen : List (Notice E)) : List (Address × Context E) :=
  (callsOf seen).filter fun call => call.1 ≠ spot

/-- Observed worlds that callbacks cannot tell apart, with the same calls but for the ones of
the handler at `spot`. -/
structure Observed.Alike (spot : Address) (Q : W → W → Prop) (o other : Observed E W) :
    Prop where
  world : Q o.world other.world
  calls : List.Forall₂ (Moved spot) (callsOf o.notices) (callsBut spot other.notices)

section Observed

variable {spot : Address} {Q : W → W → Prop}

theorem Plan.Alike.observed {R : Position → Position → Prop} {plan other : Plan E W}
    (halike : plan.Alike R Q other) :
    plan.observed.Alike R (Observed.Alike spot Q) other.observed := by
  induction halike with
  | done hctx => exact .done hctx
  | fail failure => exact .fail failure
  | panic payload => exact .panic payload
  | next hctx _ ih => exact .next hctx ih
  | act hupdate _ ih =>
      refine .act (fun o other halike => ?_) fun o other halike => ih _ _ halike.world
      exact ⟨hupdate _ _ halike.world, halike.calls⟩
  | pause how _ ih => exact .pause how ih
  | abort _ ih => exact .abort ih
  | limited limit hctx _ _ ihNone ihSome => exact .limited limit hctx ihNone ihSome

theorem Handler.Oblivious.observed {h : Handler E W} (hoblivious : h.Oblivious Q) :
    h.observed.Oblivious (Observed.Alike spot Q) := by
  intro callback hcallback R hR ctx other hctx
  cases h <;> cases hcallback <;> exact (hoblivious _ rfl R hR ctx other hctx).observed

theorem Unseen.observed {update : W → W} (hunseen : Unseen Q update) :
    Unseen (Observed.Alike (E := E) spot Q) (Observed.change update) :=
  fun _ _ halike => ⟨hunseen _ _ halike.world, halike.calls⟩

theorem Plan.Yields.observed {result : Context E} {plan : Plan E W}
    (hyields : plan.Yields Q result) : plan.observed.Yields (Observed.Alike spot Q) result := by
  induction plan with
  | done ctx => exact hyields
  | act update resume ih => exact ⟨hyields.1.observed, fun o => ih _ (hyields.2 o.world)⟩
  | fail | panic | next | pause | abort | limited => exact hyields.elim

theorem Plan.PassesOn.observed {ctx : Context E} {plan : Plan E W}
    (hpasses : plan.PassesOn Q ctx) : plan.observed.PassesOn (Observed.Alike spot Q) ctx := by
  induction plan with
  | next start resume _ => exact ⟨hpasses.1, fun result => (hpasses.2 result).observed⟩
  | act update resume ih => exact ⟨hpasses.1.observed, fun o => ih _ (hpasses.2 o.world)⟩
  | done | fail | panic | pause | abort | limited => exact hpasses.elim

theorem Handler.Inserted.observed {around : Pattern → Prop} {new : Handler E W} {index : Nat}
    {place : Address} {handlers extended : List (Handler E W)}
    (hinserted : Inserted around new index place handlers extended) :
    Inserted around new.observed index place (observedAll handlers) (observedAll extended) := by
  induction hinserted with
  | here index rest => exact .here index _
  | later h _ ih => exact .later _ ih
  | inside rest hpattern _ ih => exact .inside _ hpattern ih

variable {monitor : Monitor E W} (hQ : Equivalence Q)
  (hmonitor : ∀ notice world, Q world (monitor notice world))

include hQ hmonitor

/-- Corresponding notices keep the calls corresponding. -/
theorem Monitor.keeps_observed (hspot : spot ≠ []) :
    monitor.observed.Keeps spot.past (Observed.Alike spot Q) := by
  intro notice other hnotice o otherO halike
  refine ⟨?_, ?_⟩
  · exact hQ.trans (hQ.symm (hmonitor notice o.world)) (hQ.trans halike.world (hmonitor other _))
  · simp only [Monitor.observed, callsBut, callsOf_append, List.filter_append]
    refine List.rel_append halike.calls ?_
    cases hnotice with
    | @called address ctx other hctx =>
        have hkept := Address.past_ne hspot address
        simp only [Notice.call?, List.filterMap_cons, List.filterMap_nil, List.filter_cons,
          decide_eq_true hkept, if_true]
        exact .cons ⟨rfl, hctx⟩ .nil
    | entered | left | returned | failed => exact .nil

/-- Notices about the handler at `spot` are not seen. -/
theorem Monitor.unseen_observed (notice : Notice E) (hnotice : notice.address? = some spot) :
    Unseen (Observed.Alike spot Q) (monitor.observed notice) := by
  intro o other halike
  refine ⟨hQ.trans halike.world (hmonitor notice other.world), ?_⟩
  have hnone : callsBut spot [notice] = [] := by
    cases notice <;> first | rfl | cases hnotice; simp [Notice.call?]
  have hcalls := halike.calls
  simp only [Monitor.observed, callsBut, callsOf_append, List.filter_append] at hnone ⊢
  rwa [hnone, List.append_nil]

end Observed

/-! ## Dispatches -/

namespace Dispatcher

variable [Routable E] {Q : W → W → Prop} {monitor : Monitor E W}

/-- All dispatches with the two dispatchers end with contexts that agree, and make the same
calls but for the ones of the handler that the second one has at `spot`. -/
def AgreesBut (spot : Address) (monitor : Monitor E W) (d longer : Dispatcher E W) : Prop :=
  ∀ event attributes world,
    (d.process monitor event attributes world).1.Agrees
        (longer.process monitor event attributes world).1 ∧
      List.Forall₂ (Moved spot) (callsOf (d.notices monitor event attributes world))
        (callsBut spot (longer.notices monitor event attributes world))

/-- Putting in a filter that passes on changes neither where a dispatch ends nor the calls of
the other handlers. -/
theorem agreesBut_of_inserted (hQ : Equivalence Q)
    (hmonitor : ∀ notice world, Q world (monitor notice world)) {p : Predicate E}
    {callback : Callback E W} (hpattern : p.pattern.hasCaptures = false)
    (hpasses : ∀ ctx, (callback ctx).PassesOn Q ctx) {around : Pattern → Prop} {spot : Address}
    {d longer : Dispatcher E W}
    (hinserted : Handler.Inserted around (.filter p callback) 0 spot [d.root] [longer.root])
    (hoblivious : Throughout (fun h _ => h.Oblivious Q) [d.root]) :
    AgreesBut spot monitor d longer := by
  intro event attributes world
  have hstart : (startContext event attributes).Alike (Position.Sees spot.renumber 0)
      (startContext event attributes) :=
    ⟨rfl, rfl, rfl, rfl, rfl, rfl, fun _ j _ => iff_of_true (Nat.zero_le j) (Nat.zero_le _)⟩
  have hworld : Observed.Alike spot Q
      (monitor.observed (.dispatching (Routable.path event)) ⟨world, []⟩)
      (monitor.observed (.dispatching (Routable.path event)) ⟨world, []⟩) :=
    ⟨hQ.refl _, .nil⟩
  have hends := Blocking.walk_inserted (Monitor.unseen_observed hQ hmonitor)
    (fun ctx => (hpasses ctx).observed) hpattern
    (Monitor.keeps_observed hQ hmonitor hinserted.ne_nil) hinserted.observed
    (hoblivious.observedAll fun _ => Handler.Oblivious.observed) (List.nil_append spot).symm
    hstart hworld
  rw [← (d.process_observed monitor event attributes ⟨world, []⟩).1,
    ← (longer.process_observed monitor event attributes ⟨world, []⟩).1]
  exact ⟨hends.context.agrees, hends.world.calls⟩

end Dispatcher

end RequestRouting
