import RequestRouting.Proofs.Extraction
import RequestRouting.Proofs.NestedGroups
import RequestRouting.Proofs.Sightings

/-!
# The parameters that a route sees

A route or a filter sees what its own pattern extracts from the path as it is, under the names and
positions of that pattern, whatever has been there before: attributes that the dispatch started
with, parameters of groups around it and of handlers in front of it, or what callbacks have set. All
other attributes are as in the context on which the rest of its chain was run
(`Dispatcher.route_sees_own_parameters`).
-/

namespace RequestRouting

open Handler (listing mem_listing_cons eq_of_mem_listing)

variable {E W : Type}

/-! ## Attributes -/

namespace Attributes

theorem mergeParameters_cons (a : Attributes) (key value : String) (parameters : Parameters) :
    a.mergeParameters ((key, value) :: parameters) =
      (a.insert key (.text value)).mergeParameters parameters :=
  rfl

/-- Under the names of parameters are their values. -/
theorem text?_mergeParameters {parameters : Parameters}
    (hdistinct : (parameters.map Prod.fst).Nodup) {key value : String}
    (hmem : (key, value) ∈ parameters) (a : Attributes) :
    (a.mergeParameters parameters).text? key = some value := by
  induction parameters generalizing a with
  | nil => cases hmem
  | cons parameter parameters ih =>
      obtain ⟨hfresh, hdistinct⟩ := List.nodup_cons.mp hdistinct
      rw [mergeParameters_cons]
      rcases List.mem_cons.mp hmem with rfl | hmem
      · rw [text?, get?_mergeParameters hfresh, get?_insert, if_pos rfl]
      · exact ih hdistinct hmem _

end Attributes

/-! ## Selected contexts -/

/-- The context has the parameters that the pattern extracts from its path. Otherwise it has the
attributes of `start`. -/
def Context.TakesParameters [Routable E] (ctx start : Context E) (p : Pattern) : Prop :=
  ∃ parameters, p.extract (Routable.path ctx.event) = .ok parameters ∧
    (∀ key value, (key, value) ∈ parameters → ctx.parameter? key = some value) ∧
    ∀ key, key ∉ parameters.map Prod.fst → ctx.attributes.get? key = start.attributes.get? key

theorem Context.SelectedFrom.event [Routable E] {ctx start : Context E} {h : Handler E W}
    (hselected : ctx.SelectedFrom start h) : ctx.event = start.event := by
  obtain ⟨_, _, rfl⟩ := hselected
  rfl

/-- A context takes the parameters of the handler that has been selected for it. -/
theorem Context.SelectedFrom.takesParameters [Routable E] {ctx start : Context E}
    {h : Handler E W} (hh : h.predicate.pattern.Constructed)
    (hselected : ctx.SelectedFrom start h) : ctx.TakesParameters start h.predicate.pattern := by
  obtain ⟨index, hinto, rfl⟩ := hselected
  have haccepts : h.predicate.pattern.accepts (Routable.path start.event) = true := by
    simp only [Context.goesInto, Predicate.accepts, Bool.and_eq_true] at hinto
    exact hinto.2.1
  obtain ⟨parameters, hextract, hkeys, hattributes⟩ :=
    Context.attributes_select h.predicate.condition haccepts index
  have htaken : (start.select h.predicate index).attributes =
      start.attributes.mergeParameters parameters := by
    refine hattributes.trans ?_
    cases hcaptures : h.predicate.pattern.hasCaptures with
    | true => rfl
    | false =>
        rw [hh.keys_eq_nil hcaptures, List.map_eq_nil_iff] at hkeys
        rw [hkeys]
        rfl
  have hdistinct := (hh.extraction hextract hkeys).distinct
  refine ⟨parameters, hextract, fun key value hmem => ?_, fun key hkey => ?_⟩
  · exact (congrArg (·.text? key) htaken).trans
      (Attributes.text?_mergeParameters hdistinct hmem _)
  · rw [htaken, Attributes.get?_mergeParameters hkey]

/-! ## Mounted handlers -/

namespace Handler

variable {outer : Pattern} {h built : Handler E W} {handlers chain : List (Handler E W)}

theorem exists_join_of_mount (hbuilt : mount outer h = .ok built) :
    ∃ inner, Pattern.join outer inner = .ok built.predicate.pattern := by
  have hmount {p q : Predicate E} (hq : p.mount outer = .ok q) :
      Pattern.join outer p.pattern = .ok q.pattern := by
    obtain ⟨_, hjoin, rfl⟩ := map_eq_ok_iff.mp hq
    exact hjoin
  cases h with
  | group p handlers =>
      obtain ⟨q, hq, _, _, rfl⟩ := mount_group_eq_ok_iff.mp hbuilt
      exact ⟨_, hmount hq⟩
  | on p _ | after p _ | filter p _ | recover p _ _ _ =>
      simp only [mount, bind, bind_eq_ok_iff, Except.ok.injEq] at hbuilt
      obtain ⟨q, hq, rfl⟩ := hbuilt
      exact ⟨_, hmount hq⟩

/-- The pattern of each mounted handler is one that has been joined. -/
theorem exists_join_of_mem_listing (hchain : mountAll outer handlers = .ok chain)
    {address a : Address} {index : Nat}
    (hmem : (a, h) ∈ listing (fun _ => true) chain address index) :
    ∃ inner, Pattern.join outer inner = .ok h.predicate.pattern := by
  induction handlers using chainInduction generalizing chain address index with
  | nil =>
      cases hchain
      rw [listing_nil] at hmem
      cases hmem
  | cons first rest ihInside ihRest =>
      obtain ⟨built, hbuilt, later, hlater, rfl⟩ := mountAll_cons_eq_ok_iff.mp hchain
      rcases mem_listing_cons.mp hmem with ⟨_, ⟨_, rfl⟩ | hinside⟩ | hrest
      · exact exists_join_of_mount hbuilt
      · exact ihInside (of_mount_eq_ok hbuilt).2 hinside
      · exact ihRest hlater hrest

end Handler

/-! ## Dispatches -/

namespace Dispatcher

/-- The patterns in a dispatcher can all be constructed from text. -/
theorem constructed_of_mem_listing {handlers : List (Handler E W)} {d : Dispatcher E W}
    (hd : ofHandlers handlers = .ok d) {a : Address} {h : Handler E W}
    (hmem : (a, h) ∈ listing (fun _ => true) [d.root] [] 0) :
    h.predicate.pattern.Constructed := by
  obtain ⟨chain, hchain, rfl⟩ := ofHandlers_eq_ok_iff.mp hd
  rcases mem_listing_cons.mp hmem with ⟨_, ⟨_, rfl⟩ | hinside⟩ | hrest
  · exact .any
  · obtain ⟨inner, hjoin⟩ := Handler.exists_join_of_mem_listing hchain hinside
    exact Pattern.constructed_of_join hjoin
  · rw [Handler.listing_nil] at hrest
    cases hrest

variable [Routable E]

/-- Whatever callbacks do, and whichever engine carries out the dispatch: each call of a route or a
filter gets the event of the context on which the rest of its chain was run when the handler was
selected, the parameters that its pattern extracts from the path, and otherwise the attributes of
that context. The calls are those in the notices of the dispatch. -/
theorem route_sees_own_parameters {handlers : List (Handler E W)} {d : Dispatcher E W}
    (hd : ofHandlers handlers = .ok d) (monitor : Monitor E W) (event : E)
    (attributes : Attributes) :
    (∀ world,
      d.notices monitor event attributes world =
        .dispatching (Routable.path event) ::
          (d.sightings monitor event attributes world).map Sighting.notice) ∧
    (∀ clock world,
      d.suspendingNotices monitor event attributes clock world =
        .dispatching (Routable.path event) ::
          (d.suspendingSightings monitor event attributes clock world).map Sighting.notice) ∧
    ∀ a h, (a, h) ∈ listing (fun _ => true) [d.root] [] 0 → h.opens → ∀ start ctx,
      (∃ world, ⟨start, .called a ctx⟩ ∈ d.sightings monitor event attributes world) ∨
        (∃ clock world,
          ⟨start, .called a ctx⟩ ∈ d.suspendingSightings monitor event attributes clock world) →
      ctx.event = start.event ∧ ctx.TakesParameters start h.predicate.pattern := by
  have hrules := d.forall_sightings monitor event attributes
    (P := fun sighting => ∀ a ctx h, sighting.notice = .called a ctx →
      (a, h) ∈ listing (fun _ => true) [d.root] [] 0 → h.opens →
        ctx.event = sighting.start.event ∧
          ctx.TakesParameters sighting.start h.predicate.pattern) ?_ ?_
  · obtain ⟨hblocking, hsuspending⟩ := hrules
    refine ⟨fun world => (hblocking world).1, fun clock world => (hsuspending clock world).1, ?_⟩
    rintro a h hlisted hopens start ctx (⟨world, hmem⟩ | ⟨clock, world, hmem⟩)
    · exact (hblocking world).2 _ hmem a ctx h rfl hlisted hopens
    · exact (hsuspending clock world).2 _ hmem a ctx h rfl hlisted hopens
  · rintro _ hnone a ctx h hcalled
    rw [hcalled] at hnone
    cases hnone
  · rintro a h start ctx hlisted hselected _ _ other ⟨⟩ hother hopens
    cases eq_of_mem_listing hlisted hother
    have hfrom := hselected hopens
    exact ⟨hfrom.event, hfrom.takesParameters (constructed_of_mem_listing hd hlisted)⟩

/-- A route under a pattern. -/
def routeUnder (p : Pattern) : List (Handler TextEvent Unit) := [.on ⟨p, none⟩ Plan.unchanged]

theorem exists_mem_listing_routeUnder {p : Pattern} {d : Dispatcher TextEvent Unit}
    (hd : ofHandlers (routeUnder p) = .ok d) :
    ∃ h, ([0, 0], h) ∈ listing (fun _ => true) [d.root] [] 0 ∧ h.opens := by
  obtain ⟨chain, hchain, rfl⟩ := ofHandlers_eq_ok_iff.mp hd
  obtain ⟨route, hroute, _, _, rfl⟩ := Handler.mountAll_cons_eq_ok_iff.mp hchain
  simp only [Handler.mount, bind, bind_eq_ok_iff, Except.ok.injEq] at hroute
  obtain ⟨q, _, rfl⟩ := hroute
  refine ⟨.on q Plan.unchanged, mem_listing_cons.mpr (.inl ⟨rfl, .inr ?_⟩), rfl⟩
  exact mem_listing_cons.mpr (.inl ⟨rfl, .inl ⟨rfl, rfl⟩⟩)

/-- The value of the parameter is that of the path, and not what the dispatch started with. -/
theorem route_sees_own_parameters_of_routeUnder :
    ∃ p d h start ctx, Pattern.parse "/users/\x7bid\x7d" .whole = .ok p ∧
      ofHandlers (routeUnder p) = .ok d ∧ ([0, 0], h) ∈ listing (fun _ => true) [d.root] [] 0 ∧
      ⟨start, .called [0, 0] ctx⟩ ∈ d.sightings Monitor.silent ⟨"/users/7"⟩
        (Attributes.empty.insert "id" (.text "9")) () ∧
      start.parameter? "id" = some "9" ∧ ctx.parameter? "id" = some "7" ∧
      ctx.TakesParameters start h.predicate.pattern := by
  have hcheck : (((Pattern.parse "/users/\x7bid\x7d" .whole).bind fun p =>
      ofHandlers (routeUnder p)).toOption.any fun d =>
        (d.sightings Monitor.silent ⟨"/users/7"⟩
          (Attributes.empty.insert "id" (.text "9")) ()).any fun sighting =>
            sighting.notice.call?.any fun call =>
              call.1 == [0, 0] && sighting.start.parameter? "id" == some "9" &&
                call.2.parameter? "id" == some "7") = true := by
    decide +kernel
  obtain ⟨d, hd, hcheck⟩ := exists_of_toOption_any hcheck
  obtain ⟨p, hp, hd⟩ := bind_eq_ok_iff.mp hd
  obtain ⟨⟨start, notice⟩, hmem, hcheck⟩ := List.any_eq_true.mp hcheck
  obtain ⟨h, hlisted, hopens⟩ := exists_mem_listing_routeUnder hd
  cases notice with
  | called a ctx =>
      simp only [Notice.call?, Option.any_some, Bool.and_eq_true, beq_iff_eq] at hcheck
      obtain ⟨⟨rfl, hstart⟩, hctx⟩ := hcheck
      obtain ⟨_, _, hcalls⟩ := route_sees_own_parameters hd Monitor.silent ⟨"/users/7"⟩
        (Attributes.empty.insert "id" (.text "9"))
      obtain ⟨_, htakes⟩ := hcalls _ h hlisted hopens start ctx (.inl ⟨(), hmem⟩)
      exact ⟨p, d, h, start, ctx, hp, hd, hlisted, hmem, hstart, hctx, htakes⟩
  | dispatching | entered | left | returned | failed => cases hcheck

end Dispatcher

end RequestRouting
