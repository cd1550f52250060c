import RequestRouting.Proofs.Addresses
import RequestRouting.Proofs.JoinedMatch
import RequestRouting.Proofs.Remounting
import RequestRouting.TextEvent

/-!
# Routes in a group

A route in a group has two gates in front of it: the pattern of the group, and that pattern
joined with its own. Each of them is asked whether it matches the path of the event, and the
route is called iff both do (`Dispatcher.nested_route_called_iff`).

For a group that takes leading parts of paths, the first gate lets through what the second
one does, at least if no placeholder has an expression of its own. A group that takes whole
paths is another matter: it is asked about the whole path too, although what is inside it is
for longer ones.
-/

namespace RequestRouting

open Handler (Walks walks_nil walks_cons)

variable {E W : Type}

/-! ## Fresh contexts -/

namespace Context

/-- The context is at the start of a chain, and nothing has happened to the request yet that
keeps it out of a handler. -/
structure Fresh (ctx : Context E) : Prop where
  position : ctx.position = ⟨true, 0, false⟩
  exception : ctx.exception = none
  handled : ctx.handled = false

theorem fresh_startContext (event : E) (attributes : Attributes) :
    (Dispatcher.startContext event attributes).Fresh :=
  ⟨rfl, rfl, rfl⟩

variable [Routable E] {ctx : Context E}

/-- Only its predicate decides whether a fresh context goes into a handler. -/
theorem Fresh.goesInto (hfresh : ctx.Fresh) (h : Handler E W) :
    ctx.goesInto 0 h = h.predicate.accepts ctx.event := by
  simp [Context.goesInto, hfresh.position, hfresh.exception, hfresh.handled]

theorem Fresh.enter (hfresh : ctx.Fresh) (p : Predicate E) (index : Nat) :
    (ctx.select p index).enter.Fresh := by
  refine ⟨?_, hfresh.exception, hfresh.handled⟩
  change (⟨true, 0, ctx.handled⟩ : Position) = _
  rw [hfresh.handled]

end Context

namespace Handler

variable [Routable E] {ctx result : Context E} {seen : List (Notice E)}

/-- A fresh context goes through the chain of a group if the group accepts the event, and past
the group if not. -/
theorem walks_group_cons {p : Predicate E} {handlers rest : List (Handler E W)}
    {address : Address} (hfresh : ctx.Fresh)
    (hwalk : Walks (group p handlers :: rest) address 0 ctx result seen) :
    (p.accepts ctx.event = false ∧ Walks rest address 1 ctx result seen) ∨
      (p.accepts ctx.event = true ∧ ∃ middle inner later,
        Walks handlers (address ++ [0]) 0 (ctx.select p 0).enter middle inner ∧
        Walks rest address 1 (middle.leave (ctx.select p 0).position) result later ∧
        seen = .entered (address ++ [0]) :: (inner ++ later ++ [.left (address ++ [0])])) := by
  have hinto : ctx.goesInto 0 (group p handlers) = p.accepts ctx.event := hfresh.goesInto _
  rcases walks_cons hwalk with ⟨hdetached, _⟩ | ⟨_, hpast, hlater⟩ | ⟨_, hgoes, _, hdoes, rfl⟩
  · rw [hfresh.position] at hdetached
    cases hdetached
  · exact .inl ⟨hinto ▸ hpast, hlater⟩
  · cases hdoes with
    | group hinner hlater => exact .inr ⟨hinto ▸ hgoes, _, _, _, hinner, hlater, rfl⟩

/-- A fresh context gets to a route iff the route accepts the event. -/
theorem called_iff_of_walks_on {p : Predicate E} {callback : Callback E W} {address : Address}
    (hfresh : ctx.Fresh) (hwalk : Walks [on p callback] address 0 ctx result seen) :
    (∃ start, .called (address ++ [0]) start ∈ seen) ↔ p.accepts ctx.event = true := by
  have hinto : ctx.goesInto 0 (on p callback) = p.accepts ctx.event := hfresh.goesInto _
  rcases walks_cons hwalk with ⟨hdetached, _⟩ | ⟨_, hpast, hlater⟩ | ⟨_, hgoes, _, hdoes, rfl⟩
  · rw [hfresh.position] at hdetached
    cases hdetached
  · obtain ⟨_, rfl⟩ := walks_nil hlater
    rw [← hinto, hpast]
    simp
  · rw [← hinto, hgoes]
    cases hdoes with
    | on hcall _ =>
        obtain ⟨_⟩ := hcall
        exact iff_of_true ⟨_, List.mem_cons_of_mem _ List.mem_cons_self⟩ rfl

/-- A fresh context gets to what is in a group iff the group accepts the event and it gets there
in the chain of the group. -/
theorem called_iff_of_walks_group {p : Predicate E} {handlers : List (Handler E W)}
    {address a : Address} {inside : Prop} (hfresh : ctx.Fresh)
    (hinside : ∀ middle inner,
      Walks handlers (address ++ [0]) 0 (ctx.select p 0).enter middle inner →
      ((∃ start, .called a start ∈ inner) ↔ inside))
    (hwalk : Walks [group p handlers] address 0 ctx result seen) :
    (∃ start, .called a start ∈ seen) ↔ p.accepts ctx.event = true ∧ inside := by
  rcases walks_group_cons hfresh hwalk with
    ⟨hrefuses, hlater⟩ | ⟨haccepts, middle, inner, later, hinner, hlater, rfl⟩
  · obtain ⟨_, rfl⟩ := walks_nil hlater
    rw [hrefuses]
    simp
  · obtain ⟨_, rfl⟩ := walks_nil hlater
    rw [← hinside middle inner hinner, haccepts]
    simp

end Handler

/-! ## A route in a group -/

namespace Dispatcher

variable {p c : Pattern} {callback : Callback E W} {g : Handler E W}

/-- The dispatcher for a route in a group. -/
def routeInGroup (p c : Pattern) (callback : Callback E W) : Dispatcher E W :=
  ⟨.group Predicate.any [.group ⟨p, none⟩ [.on ⟨c, none⟩ callback]]⟩

/-- In a dispatcher, a route in a group is under the join. -/
theorem ofHandlers_eq_routeInGroup (hp : p.Parsed) (hc : c.Parsed)
    (hgroup : Handler.groupOf ⟨p, none⟩ [.on ⟨c, none⟩ callback] = .ok g) :
    ∃ combined, Pattern.join p c = .ok combined ∧
      ofHandlers [g] = .ok (routeInGroup p combined callback) := by
  obtain ⟨chain, hchain, rfl⟩ := Handler.groupOf_eq_ok_iff.mp hgroup
  obtain ⟨_, hroute, _, hnil, rfl⟩ := Handler.mountAll_cons_eq_ok_iff.mp hchain
  obtain ⟨combined, hjoin, _, _, rfl⟩ := Handler.mount_eq_ok_iff.mp hroute
  cases hnil
  refine ⟨combined, hjoin, ofHandlers_eq_ok_iff.mpr ⟨_, ?_, rfl⟩⟩
  apply Handler.AllParsed.mountAll_any
  intro r hr
  simp only [Handler.remade, Handler.patternsAll, Handler.patterns, List.append_nil, List.mem_cons,
    List.not_mem_nil, or_false] at hr
  rcases hr with rfl | rfl
  · exact hp
  · exact (hp.of_join hc hjoin).1

variable [Routable E]

theorem called_routeInGroup_iff (p c : Pattern) (callback : Callback E W) (monitor : Monitor E W)
    (event : E) (attributes : Attributes) (world : W) :
    (∃ ctx, .called [0, 0, 0] ctx ∈
        (routeInGroup p c callback).notices monitor event attributes world) ↔
      p.accepts (Routable.path event) = true ∧ c.accepts (Routable.path event) = true := by
  obtain ⟨seen, hwalk, hnotices⟩ :=
    (routeInGroup p c callback).walks_notices monitor event attributes world
  have hfresh := Context.fresh_startContext event attributes
  have hgroup := hfresh.enter Predicate.any 0
  have hroute := hgroup.enter ⟨p, none⟩ 0
  have hcalled := Handler.called_iff_of_walks_group hfresh (fun _ _ hinner =>
    Handler.called_iff_of_walks_group hgroup (fun _ _ hinmost =>
      Handler.called_iff_of_walks_on hroute hinmost) hinner) hwalk
  have hpath (p : Pattern) :
      (⟨p, none⟩ : Predicate E).accepts event = p.accepts (Routable.path event) :=
    Bool.and_true _
  rw [hnotices, ← hpath p, ← hpath c]
  simp only [List.mem_cons, reduceCtorEq, false_or]
  exact hcalled.trans (and_iff_right rfl)

/-- A route in a group is called iff the pattern of the group matches the path and its join with
the pattern of the route does too. If the group takes leading parts of paths, and no placeholder
has an expression of its own, that is so iff the join matches. -/
theorem nested_route_called_iff (hp : p.Parsed) (hc : c.Parsed)
    (hgroup : Handler.groupOf ⟨p, none⟩ [.on ⟨c, none⟩ callback] = .ok g) :
    ∃ d combined, ofHandlers [g] = .ok d ∧ Pattern.join p c = .ok combined ∧
      ∀ (monitor : Monitor E W) (event : E) (attributes : Attributes) (world : W),
        ((∃ ctx, .called [0, 0, 0] ctx ∈ d.notices monitor event attributes world) ↔
          p.accepts (Routable.path event) = true ∧
            combined.accepts (Routable.path event) = true) ∧
        (p.extent = .leading → p.isUntyped = true → c.isUntyped = true →
          ((∃ ctx, .called [0, 0, 0] ctx ∈ d.notices monitor event attributes world) ↔
            combined.accepts (Routable.path event) = true)) := by
  obtain ⟨combined, hjoin, hbuilt⟩ := ofHandlers_eq_routeInGroup hp hc hgroup
  refine ⟨_, combined, hbuilt, hjoin, fun monitor event attributes world => ?_⟩
  have hcalled := called_routeInGroup_iff p combined callback monitor event attributes world
  refine ⟨hcalled, fun hleading huntyped hother => hcalled.trans ?_⟩
  exact and_iff_right_of_imp (hp.accepts_of_join hc huntyped hother hleading hjoin)

/-- A route behind two literals. -/
def apiUsers (extent : Extent) : Except PatternError (Handler TextEvent Unit) :=
  Handler.groupOf ⟨.literal ⟨"/api", extent⟩, none⟩
    [.on ⟨.literal ⟨"/users", .whole⟩, none⟩ Plan.unchanged]

/-- In a group for leading parts of paths, the route is called for the path of both texts. -/
theorem nested_route_called_iff_apiUsers :
    ∃ g d, apiUsers .leading = .ok g ∧ ofHandlers [g] = .ok d ∧
      ∃ ctx, .called [0, 0, 0] ctx ∈
        d.notices Monitor.silent ⟨"/api/users"⟩ Attributes.empty () := by
  obtain ⟨d, combined, hbuilt, hjoin, hcalled⟩ :=
    nested_route_called_iff ⟨"/api", .leading, rfl⟩ ⟨"/users", .whole, rfl⟩
      (rfl : apiUsers .leading = .ok _)
  obtain rfl : Pattern.literal ⟨"/api/users", .whole⟩ = combined := Except.ok.inj hjoin
  refine ⟨_, d, rfl, hbuilt, ?_⟩
  exact ((hcalled Monitor.silent ⟨"/api/users"⟩ Attributes.empty ()).2 rfl rfl rfl).mpr rfl

/-- In a group for whole paths, the route is not called for the path of both texts, although the
join matches it: the group alone does not. -/
theorem route_in_exact_group_not_called :
    Pattern.parse "/api" .whole = .ok (.literal ⟨"/api", .whole⟩) ∧
      Pattern.parse "/users" .whole = .ok (.literal ⟨"/users", .whole⟩) ∧
      ∃ combined g d, Pattern.join (.literal ⟨"/api", .whole⟩) (.literal ⟨"/users", .whole⟩) =
          .ok combined ∧
        apiUsers .whole = .ok g ∧ ofHandlers [g] = .ok d ∧
        combined.accepts "/api/users" = true ∧
        ¬∃ ctx, .called [0, 0, 0] ctx ∈
          d.notices Monitor.silent ⟨"/api/users"⟩ Attributes.empty () := by
  refine ⟨rfl, rfl, .literal ⟨"/api/users", .whole⟩, _,
    routeInGroup (.literal ⟨"/api", .whole⟩) (.literal ⟨"/api/users", .whole⟩) Plan.unchanged,
    rfl, rfl, rfl, rfl, ?_⟩
  rw [called_routeInGroup_iff]
  decide

end Dispatcher

end RequestRouting
