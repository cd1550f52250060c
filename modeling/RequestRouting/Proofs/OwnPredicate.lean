import RequestRouting.Proofs.Selection

/-!
# The predicate that a callback sees

A context carries the predicate of the handler that it has gone into last. Routes and filters
call their callback at once, so they see their own predicate. The handlers that run the rest
of their chain first get what comes back from there: they see their own predicate if no other
handler has been entered in between (`OwnSeen`), and otherwise in general that of a handler
behind them (`after_sees_predicate_of_route`).
-/

namespace RequestRouting

open Handler (listing mem_listing_cons eq_of_mem_listing)
open Address (Within within_self)

variable {E W : Type}

/-- The handler that has been entered, if that is what happens. -/
def Notice.entered? : Notice E → Option Address
  | entered address => some address
  | dispatching _ | left _ | called _ _ | returned _ _ | failed _ _ _ => none

/-- The handler that has been entered last, where `last` is the one from before. -/
def lastEntered (last : Option Address) (seen : List (Notice E)) : Option Address :=
  seen.foldl (fun last notice => notice.entered?.or last) last

/-- Whoever is called while it is itself the handler that has been entered last is called under
its own predicate. -/
def OwnSeen (own : Address → Predicate E → Prop) : Option Address → List (Notice E) → Prop
  | _, [] => True
  | last, notice :: seen =>
      (∀ call ∈ notice.call?, last = some call.1 → own call.1 call.2.predicate) ∧
        OwnSeen own (notice.entered?.or last) seen

section OwnSeen

variable {own : Address → Predicate E → Prop} {last : Option Address}

theorem ownSeen_append {first second : List (Notice E)} :
    OwnSeen own last (first ++ second) ↔
      OwnSeen own last first ∧ OwnSeen own (lastEntered last first) second := by
  induction first generalizing last with
  | nil => simp [OwnSeen, lastEntered]
  | cons notice first ih => simp [OwnSeen, lastEntered, ih, and_assoc]

/-- Notices that announce neither a call nor that a handler is entered make no difference. -/
theorem ownSeen_singleton {notice : Notice E} (hcall : notice.call? = none) :
    OwnSeen own last [notice] := by
  simp [OwnSeen, hcall]

theorem OwnSeen.of_called {before after : List (Notice E)} {a : Address} {ctx : Context E}
    (hseen : OwnSeen own last (before ++ .called a ctx :: after))
    (hlast : lastEntered last before = some a) : own a ctx.predicate :=
  (ownSeen_append.mp hseen).2.1 (a, ctx) rfl hlast

end OwnSeen

/-- What has been entered last is what had been before, or has been entered meanwhile. -/
theorem lastEntered_cases (last : Option Address) (seen : List (Notice E)) :
    lastEntered last seen = last ∨
      ∃ a, .entered a ∈ seen ∧ lastEntered last seen = some a := by
  induction seen generalizing last with
  | nil => exact .inl rfl
  | cons notice seen ih =>
      rcases ih (notice.entered?.or last) with hsame | ⟨a, hmem, hlast⟩
      · cases notice with
        | entered a => exact .inr ⟨a, List.mem_cons_self, hsame⟩
        | dispatching | left | called | returned | failed => exact .inl hsame
      · exact .inr ⟨a, List.mem_cons_of_mem _ hmem, hlast⟩

/-! ## Calls -/

section Calls

variable {rest inner : Course E} {own : Address → Predicate E → Prop} {address : Address}
  (hrest : ∀ ctx result seen, rest ctx result seen → ∀ last, OwnSeen own last seen)

include hrest

theorem Plan.Runs.ownSeen {plan : Plan E W} {outcome : Except Failure (Context E)}
    {seen : List (Notice E)} (hruns : plan.Runs rest outcome seen) (last : Option Address) :
    OwnSeen own last seen := by
  induction hruns generalizing last with
  | done | fail | panic => trivial
  | next hfirst _ ih => exact ownSeen_append.mpr ⟨hrest _ _ _ hfirst last, ih _⟩
  | limited limit hfirst _ ih => exact ownSeen_append.mpr ⟨hrest _ _ _ hfirst last, ih _⟩
  | act update world _ ih => exact ih last
  | pause how _ ih => exact ih last
  | abort _ ih => exact ih last

theorem Callback.Calls.ownSeen {callback : Callback E W} {ctx : Context E}
    {outcome : Except Failure (Context E)} {seen : List (Notice E)}
    (hcall : callback.Calls rest address ctx outcome seen) {last : Option Address}
    (hown : last = some address → own address ctx.predicate) : OwnSeen own last seen := by
  obtain ⟨hruns⟩ := hcall
  refine ⟨?_, ownSeen_append.mpr ⟨hruns.ownSeen hrest _, ?_⟩⟩
  · rintro _ ⟨⟩ hlast
    exact hown hlast
  · exact ownSeen_singleton (by cases outcome <;> rfl)

/-- A handler that has just been entered calls its callback under its own predicate, unless the
rest of its chain has entered another handler before. -/
theorem Handler.Does.ownSeen {h : Handler E W} {ctx result : Context E}
    {seen : List (Notice E)} (hown : own address ctx.predicate)
    (hkeeps : ∀ ctx result seen, rest ctx result seen →
      lastEntered (some address) seen = some address → result.predicate = ctx.predicate)
    (hinner : ∀ ctx result seen, inner ctx result seen → ∀ last, OwnSeen own last seen)
    (hdoes : h.Does rest inner address ctx result seen) : OwnSeen own (some address) seen := by
  cases hdoes with
  | on hcall hlater =>
      have hfirst : OwnSeen own (some address) _ := hcall.ownSeen hrest fun _ => hown
      exact ownSeen_append.mpr ⟨hfirst, hrest _ _ _ hlater _⟩
  | after hearlier hcall =>
      refine ownSeen_append.mpr ⟨hrest _ _ _ hearlier _, hcall.ownSeen hrest fun hlast => ?_⟩
      rwa [hkeeps _ _ _ hearlier hlast]
  | filter hcall => exact hcall.ownSeen hrest fun _ => hown
  | failedFilter hcall hlater =>
      have hfirst : OwnSeen own (some address) _ := hcall.ownSeen hrest fun _ => hown
      exact ownSeen_append.mpr ⟨hfirst, hrest _ _ _ hlater _⟩
  | passed hearlier _ => exact hrest _ _ _ hearlier _
  | recovered hearlier _ hcall =>
      refine ownSeen_append.mpr ⟨hrest _ _ _ hearlier _, hcall.ownSeen hrest fun hlast => ?_⟩
      rwa [hkeeps _ _ _ hearlier hlast]
  | group hinside hlater =>
      exact ownSeen_append.mpr ⟨hinner _ _ _ hinside _, hrest _ _ _ hlater _⟩

end Calls

/-! ## Walks -/

namespace Handler

variable [Routable E] {handlers : List (Handler E W)} {address : Address} {index : Nat}
  {ctx result : Context E} {seen : List (Notice E)}

/-- A walk that enters no handler gives no notices and leaves the predicate as it is. -/
theorem Walks.quiet_or_entered (hwalk : Walks handlers address index ctx result seen) :
    (seen = [] ∧ result.predicate = ctx.predicate) ∨
      ∃ a later, seen = .entered a :: later := by
  induction handlers generalizing index with
  | nil =>
      obtain ⟨rfl, rfl⟩ := walks_nil hwalk
      refine .inl ⟨rfl, ?_⟩
      split <;> rfl
  | cons h rest ih =>
      rcases walks_cons hwalk with
        ⟨_, rfl, rfl⟩ | ⟨_, _, hrest⟩ | ⟨_, _, between, _, rfl⟩
      · exact .inl ⟨rfl, rfl⟩
      · exact ih hrest
      · exact .inr ⟨_, _, rfl⟩

/-- A walk behind a handler keeps the predicate if that handler is the one entered last. -/
theorem Walks.predicate_of_lastEntered
    (hwalk : Walks handlers address (index + 1) ctx result seen)
    (hlast : lastEntered (some (address ++ [index])) seen = some (address ++ [index])) :
    result.predicate = ctx.predicate := by
  rcases hwalk.quiet_or_entered with ⟨_, hkept⟩ | ⟨a, later, rfl⟩
  · exact hkept
  · -- What has been entered is behind the handler, so it cannot be the handler.
    have hbehind {b : Address} (hmem : .entered b ∈ Notice.entered a :: later) :
        address ++ [index] ≠ b := by
      obtain ⟨_, hb, hwithin⟩ := hwalk.within _ hmem
      cases hb
      exact hwithin.ne_self
    have hsome : lastEntered (some a) later = some (address ++ [index]) := hlast
    rcases lastEntered_cases (some a) later with hfirst | ⟨b, hmem, hb⟩
    · rw [hfirst] at hsome
      exact absurd (Option.some.inj hsome).symm (hbehind List.mem_cons_self)
    · rw [hb] at hsome
      exact absurd (Option.some.inj hsome).symm (hbehind (List.mem_cons_of_mem _ hmem))

/-- In a walk, whoever is called while it is itself the handler that has been entered last is
called under its own predicate. -/
theorem Walks.ownSeen {own : Address → Predicate E → Prop}
    (hown : ∀ a h, (a, h) ∈ listing (fun _ => true) handlers address index → own a h.predicate)
    (hwalk : Walks handlers address index ctx result seen) (last : Option Address) :
    OwnSeen own last seen := by
  induction handlers using chainInduction generalizing address index ctx result seen last with
  | nil =>
      obtain ⟨_, rfl⟩ := walks_nil hwalk
      trivial
  | cons h rest ihInside ihRest =>
      have hlater (ctx result : Context E) (seen : List (Notice E))
          (hrest : Walks rest address (index + 1) ctx result seen) (last : Option Address) :
          OwnSeen own last seen :=
        ihRest (fun a later hmem => hown a later (mem_listing_cons.mpr (.inr hmem))) hrest last
      rcases walks_cons hwalk with
        ⟨_, _, rfl⟩ | ⟨_, _, hrest⟩ | ⟨_, _, between, hdoes, rfl⟩
      · trivial
      · exact hlater _ _ _ hrest last
      · have hhere : own (address ++ [index]) (ctx.select h.predicate index).predicate :=
          hown _ h (mem_listing_cons.mpr (.inl ⟨rfl, .inl ⟨rfl, rfl⟩⟩))
        have hbetween : OwnSeen own (some (address ++ [index])) between := by
          refine hdoes.ownSeen hlater hhere (fun _ _ _ hrest => hrest.predicate_of_lastEntered)
            fun _ _ _ hinside => ihInside (fun a inner hmem => ?_) hinside
          exact hown a inner (mem_listing_cons.mpr (.inl ⟨rfl, .inr hmem⟩))
        exact ⟨nofun, ownSeen_append.mpr ⟨hbetween, ownSeen_singleton rfl⟩⟩

end Handler

/-! ## Dispatches -/

namespace Dispatcher

variable [Routable E] (d : Dispatcher E W) (monitor : Monitor E W) (event : E)
  (attributes : Attributes)

/-- Whatever callbacks do: those of routes and filters are called under the predicate of their
handler, with either engine, and so are all others if no other handler has been entered since
theirs has. -/
theorem own_predicate_unless_others_entered {a : Address} {h : Handler E W}
    (hlisted : (a, h) ∈ listing (fun _ => true) [d.root] [] 0) :
    (h.opens →
      (∀ world ctx, .called a ctx ∈ d.notices monitor event attributes world →
        ctx.predicate = h.predicate) ∧
      ∀ clock world ctx,
        .called a ctx ∈ d.suspendingNotices monitor event attributes clock world →
        ctx.predicate = h.predicate) ∧
    ∀ world before ctx after,
      d.notices monitor event attributes world = before ++ .called a ctx :: after →
      lastEntered none before = some a → ctx.predicate = h.predicate := by
  constructor
  · intro hopens
    have hrules := d.forall_notices monitor event attributes
      (P := fun notice => ∀ ctx, notice = .called a ctx → ctx.predicate = h.predicate) ?_ ?_
    · exact ⟨fun world ctx hcalled => hrules.1 world _ hcalled ctx rfl,
        fun clock world ctx hcalled => hrules.2 clock world _ hcalled ctx rfl⟩
    · rintro _ hnone ctx rfl
      cases hnone
    · rintro _ other _ hother hselected ctx ⟨⟩
      cases eq_of_mem_listing hother hlisted
      obtain ⟨start, index, _, rfl⟩ := hselected hopens
      rfl
  · intro world before ctx after hnotices hlast
    obtain ⟨seen, hwalk, hseen⟩ := d.walks_notices monitor event attributes world
    let own (a : Address) (p : Predicate E) : Prop :=
      ∀ h, (a, h) ∈ listing (fun _ => true) [d.root] [] 0 → p = h.predicate
    have hown : OwnSeen own none seen :=
      hwalk.ownSeen (fun a h hmem other hother => by rw [eq_of_mem_listing hmem hother]) none
    have hall : OwnSeen own none (before ++ .called a ctx :: after) := by
      rw [← hnotices, hseen]
      exact ⟨nofun, hown⟩
    exact hall.of_called hlast h hlisted

/-- The predicate for paths that start with `/a`. -/
def below : Predicate TextEvent := ⟨.literal ⟨"/a", .leading⟩, none⟩

/-- A handler that runs after a route for a longer path. -/
def routeBelow : Dispatcher TextEvent Unit :=
  ⟨.group Predicate.any
    [.after below Plan.unchanged, .on ⟨.literal ⟨"/a/b", .whole⟩, none⟩ Plan.unchanged]⟩

theorem mem_listing_routeBelow :
    ([0, 0], Handler.after below Plan.unchanged) ∈
      listing (fun _ => true) [routeBelow.root] [] 0 := by
  simp [routeBelow, Handler.mem_listing_cons, Handler.inside]

/-- For a path that only the wrapper of `routeBelow` is for, it sees its own predicate. -/
theorem own_predicate_of_routeBelow :
    ∃ before ctx after,
      routeBelow.notices Monitor.silent ⟨"/a"⟩ Attributes.empty () =
        before ++ .called [0, 0] ctx :: after ∧
      lastEntered none before = some [0, 0] ∧ ctx.predicate = below := by
  have hnotices : routeBelow.notices Monitor.silent ⟨"/a"⟩ Attributes.empty () =
      [.dispatching "/a", .entered [0], .entered [0, 0]] ++ .called [0, 0] _ :: _ := rfl
  obtain ⟨_, hcloses⟩ :=
    routeBelow.own_predicate_unless_others_entered Monitor.silent ⟨"/a"⟩ Attributes.empty
      mem_listing_routeBelow
  exact ⟨_, _, _, hnotices, rfl, hcloses () _ _ _ hnotices rfl⟩

/-- The wrapper of `routeBelow` is called under the predicate of the route behind it, and not
under its own, where a request gets to that route. -/
theorem after_sees_predicate_of_route :
    ofHandlers [Handler.after below Plan.unchanged,
        .on ⟨.literal ⟨"/a/b", .whole⟩, none⟩ Plan.unchanged] = .ok routeBelow ∧
      ∃ ctx, .called [0, 0] ctx ∈
          routeBelow.notices Monitor.silent ⟨"/a/b"⟩ Attributes.empty () ∧
        ctx.predicate.pattern.text = "/a/b" ∧ ctx.predicate ≠ below := by
  refine ⟨rfl, _, List.mem_of_getElem? (i := 7) rfl, rfl, fun heq => ?_⟩
  have htext : "/a/b" = "/a" := congrArg (fun p => p.pattern.text) heq
  exact absurd htext (by decide)

end Dispatcher

end RequestRouting
