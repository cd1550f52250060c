import RequestRouting.Proofs.Tour

/-!
# Up to the first route that answers

Which handlers are reached when a route answers: no route after it, and no other handler
behind it in its chain. Calling the handlers that are reached, in the order of their tour,
is what it means that the first route that answers wins.
-/

namespace RequestRouting

open Address

variable {E W : Type}

namespace Handler

/-- The addresses of the handlers in a list that are chosen. -/
def addresses (chosen : Handler E W → Bool) (listed : List (Address × Handler E W)) :
    List Address :=
  (listed.filter fun x => chosen x.2).map Prod.fst

/-- The addresses of the routes of a chain, leaving out what is not kept. -/
def routes (keep : Handler E W → Bool) (handlers : List (Handler E W)) (address : Address)
    (index : Nat) : List Address :=
  addresses isTerminal (listing keep handlers address index)

/-- Whether a handler is called when `first` is the first route that answers, if there is
one: a route unless it comes later, any other handler unless it is behind that route. -/
def reached (first : Option Address) (x : Address × Handler E W) : Bool :=
  first.all fun route =>
    if x.2.isTerminal then !decide (route < x.1) else !behind route x.1

section Routes

variable {keep : Handler E W → Bool} {h : Handler E W} {rest handlers : List (Handler E W)}
  {address a : Address} {index : Nat}

@[simp]
theorem routes_nil : routes keep [] address index = [] := by
  simp [routes, addresses]

theorem routes_cons :
    routes keep (h :: rest) address index =
      if keep h then
        (if h.isTerminal then [address ++ [index]] else []) ++
          routes keep h.inside (address ++ [index]) 0 ++ routes keep rest address (index + 1)
      else routes keep rest address (index + 1) := by
  unfold routes addresses
  rw [listing_cons]
  by_cases hkeep : keep h <;> by_cases hterminal : h.isTerminal <;> simp [hkeep, hterminal]

theorem within_of_mem_routes (hmem : a ∈ routes keep handlers address index) :
    Within address index a := by
  obtain ⟨⟨a, listed⟩, hlisted, rfl⟩ := List.mem_map.mp hmem
  exact within_of_mem_listing (List.mem_filter.mp hlisted).1

@[simp]
theorem reached_none (x : Address × Handler E W) : reached none x = true := rfl

/-- A handler is reached when the first route that answers is behind it in its chain. -/
theorem reached_self {first : Option Address}
    (hfirst : ∀ route ∈ first, Within address (index + 1) route) :
    reached first (address ++ [index], h) = true := by
  cases first with
  | none => rfl
  | some route =>
      have hwithin := hfirst route rfl
      have hlt : ¬ route < address ++ [index] := List.lt_asymm hwithin.lt
      simp [reached, hlt, hwithin.not_behind]

/-- Nothing behind a route is reached when the route answers. -/
theorem reached_behind {x : Address × Handler E W} (hwithin : Within address (index + 1) x.1) :
    reached (some (address ++ [index])) x = false := by
  simp [reached, hwithin.lt, hwithin.behind_self]

/-- When a route inside a group answers, the handlers behind the group are reached, but for
the routes. -/
theorem reached_later {place : Nat} {route : Address} {x : Address × Handler E W}
    (hroute : Within (address ++ [index]) place route)
    (hwithin : Within address (index + 1) x.1) :
    reached (some route) x = !x.2.isTerminal := by
  cases hterminal : x.2.isTerminal <;>
    simp [reached, hterminal, hroute.lt_later hwithin, hroute.not_behind_later hwithin]

/-- When a route behind a group answers, the handlers inside the group are reached. -/
theorem reached_inside {place : Nat} {first : Option Address} {x : Address × Handler E W}
    (hfirst : ∀ route ∈ first, Within address (index + 1) route)
    (hwithin : Within (address ++ [index]) place x.1) : reached first x = true := by
  cases first with
  | none => rfl
  | some route =>
      have hroute := hfirst route rfl
      have hlt : ¬ route < x.1 := List.lt_asymm (hwithin.lt_later hroute)
      simp [reached, hlt, hroute.not_behind_inside hwithin]

end Routes

/-! ## What is called in a dispatch -/

/-- The handler wraps the rest of its chain with a callback that is called in any case. -/
def wraps (h : Handler E W) : Bool := (h.opens || h.closes) && !h.isTerminal

/-- The first route that answers wins. `live` are the handlers that can be called, in
pre-order, `answers` says which routes answer, and `called` is what is called. -/
structure FirstRouteWins (live : List (Address × Handler E W)) (answers : Address → Bool)
    (called : List Address) : Prop where
  /-- The routes are called up to the first that answers, in their order. -/
  routes_called : called.filter (· ∈ addresses isTerminal live) =
    (addresses isTerminal live).takeWhile (fun a => !answers a) ++
      ((addresses isTerminal live).find? answers).toList
  /-- The other handlers are called unless they are behind that route in its chain. -/
  wrappers_called : ∀ a h, (a, h) ∈ live → h.wraps →
    (a ∈ called ↔
      ∀ route ∈ (addresses isTerminal live).find? answers, behind route a = false)
  /-- No handler is called twice. -/
  once : called.Nodup
  /-- Only routes and handlers that wrap others are called. -/
  callees : ∀ a ∈ called, ∃ h, (a, h) ∈ live ∧ (h.isTerminal ∨ h.wraps)
  /-- Routes and filters are called in pre-order. -/
  openers_in_order : called.filter (· ∈ addresses opens live) =
    (addresses opens live).filter (· ∈ called)
  /-- What is behind an `after` handler in its chain is not called after it. -/
  closers_last : called.Pairwise fun a b => a ∈ addresses closes live → behind a b = false

section Reached

variable {keep : Handler E W → Bool} {handlers : List (Handler E W)} {address a : Address}
  {index : Nat} {first : Option Address}

/-- Handlers of a listing with the same address are the same. -/
theorem eq_of_mem_listing {h other : Handler E W}
    (hmem : (a, h) ∈ listing keep handlers address index)
    (hother : (a, other) ∈ listing keep handlers address index) : h = other := by
  have hsorted : (listing keep handlers address index).Pairwise _ := listing_pairwise
  generalize listing keep handlers address index = listed at hmem hother hsorted
  induction hsorted with
  | nil => cases hmem
  | @cons x listed hlt _ ih =>
      rcases List.mem_cons.mp hmem with hhere | hlater <;>
        rcases List.mem_cons.mp hother with hotherHere | hotherLater
      · exact congrArg Prod.snd (hhere.trans hotherHere.symm)
      · have habsurd := hlt (a, other) hotherLater
        rw [← hhere] at habsurd
        exact (List.lt_irrefl a habsurd).elim
      · have habsurd := hlt (a, h) hlater
        rw [← hotherHere] at habsurd
        exact (List.lt_irrefl a habsurd).elim
      · exact ih hlater hotherLater

theorem mem_addresses_iff {chosen : Handler E W → Bool} {h : Handler E W}
    (hmem : (a, h) ∈ listing keep handlers address index) :
    a ∈ addresses chosen (listing keep handlers address index) ↔ chosen h := by
  constructor
  · intro ha
    obtain ⟨⟨_, other⟩, hother, rfl⟩ := List.mem_map.mp ha
    obtain ⟨hlisted, hchosen⟩ := List.mem_filter.mp hother
    rw [eq_of_mem_listing hmem hlisted]
    exact hchosen
  · intro hchosen
    exact List.mem_map.mpr ⟨(a, h), List.mem_filter.mpr ⟨hmem, hchosen⟩, rfl⟩

/-- Up to the first route that answers, the routes are those that do not come after it. -/
theorem filter_not_after_find? {listed : List Address} (hsorted : listed.Pairwise (· < ·))
    (answers : Address → Bool) :
    listed.filter (fun a => (listed.find? answers).all fun route => !decide (route < a)) =
      listed.takeWhile (fun a => !answers a) ++ (listed.find? answers).toList := by
  induction hsorted with
  | nil => rfl
  | @cons a listed hlt _ ih =>
      by_cases hanswers : answers a
      · rw [List.find?_cons_of_pos hanswers, List.takeWhile_cons_of_neg (by simp [hanswers]),
          List.filter_cons_of_pos (by simp)]
        have hnone :
            listed.filter (fun b => (some a).all fun route => !decide (route < b)) = [] := by
          rw [List.filter_eq_nil_iff]
          intro b hb
          simp [hlt b hb]
        rw [hnone]
        rfl
      · rw [List.find?_cons_of_neg hanswers, List.takeWhile_cons_of_pos (by simp [hanswers]),
          List.filter_cons_of_pos ?_, ih]
        · rfl
        · cases hfound : listed.find? answers with
          | none => rfl
          | some route =>
              have hlater := hlt route (List.mem_of_find?_eq_some hfound)
              simp [List.lt_asymm hlater]

/-- Handlers that call first are reached in the order of the listing. -/
theorem filter_mem_addresses {chosen : Handler E W → Bool} (hopens : ∀ h, chosen h → h.opens) :
    (((tour keep handlers address index).filter (reached first)).map Prod.fst).filter
        (· ∈ addresses chosen (listing keep handlers address index)) =
      (((listing keep handlers address index).filter fun x => chosen x.2).filter
        (reached first)).map Prod.fst := by
  rw [List.filter_map]
  congr 1
  calc ((tour keep handlers address index).filter (reached first)).filter
        ((fun a => decide (a ∈ addresses chosen (listing keep handlers address index))) ∘ Prod.fst)
    _ = ((tour keep handlers address index).filter (reached first)).filter
          fun x => chosen x.2 := by
        apply List.filter_congr
        intro x hx
        have hlisted := mem_listing_of_mem_tour (List.mem_filter.mp hx).1
        simp [mem_addresses_iff hlisted]
    _ = ((tour keep handlers address index).filter fun x => chosen x.2).filter
          (reached first) := by
        rw [List.filter_filter, List.filter_filter]
        exact List.filter_congr fun x _ => Bool.and_comm _ _
    _ = ((listing keep handlers address index).filter fun x => chosen x.2).filter
          (reached first) := by
        rw [filter_tour hopens]

theorem mem_map_fst_reached {h : Handler E W}
    (hmem : (a, h) ∈ listing keep handlers address index) :
    a ∈ ((tour keep handlers address index).filter (reached first)).map Prod.fst ↔
      (h.opens || h.closes) ∧ reached first (a, h) := by
  constructor
  · intro ha
    obtain ⟨⟨_, other⟩, hother, rfl⟩ := List.mem_map.mp ha
    obtain ⟨hvisited, hreached⟩ := List.mem_filter.mp hother
    obtain ⟨hlisted, hcalls⟩ := List.mem_filter.mp (tour_perm.mem_iff.mp hvisited)
    rw [eq_of_mem_listing hmem hlisted]
    exact ⟨hcalls, hreached⟩
  · rintro ⟨hcalls, hreached⟩
    have hvisited := tour_perm.mem_iff.mpr (List.mem_filter.mpr ⟨hmem, hcalls⟩)
    exact List.mem_map.mpr ⟨(a, h), List.mem_filter.mpr ⟨hvisited, hreached⟩, rfl⟩

/-- Calling the handlers that are reached in the order of their tour lets the first route
that answers win. -/
theorem firstRouteWins_of_tour (answers : Address → Bool) :
    FirstRouteWins (listing keep handlers address index) answers
      (((tour keep handlers address index).filter
        (reached ((routes keep handlers address index).find? answers))).map Prod.fst) where
  routes_called := by
    have hsorted : (routes keep handlers address index).Pairwise (· < ·) :=
      List.pairwise_map.mpr (listing_pairwise.filter _)
    rw [filter_mem_addresses opens_of_isTerminal]
    refine Eq.trans ?_ (filter_not_after_find? hsorted answers)
    generalize (routes keep handlers address index).find? answers = first
    rw [routes, addresses, List.filter_map]
    congr 1
    apply List.filter_congr
    intro x hx
    have hterminal : x.2.isTerminal = true := (List.mem_filter.mp hx).2
    simp [reached, hterminal]
  wrappers_called a h hmem hwraps := by
    obtain ⟨hcalls, hterminal⟩ := Bool.and_eq_true_iff.mp hwraps
    rw [mem_map_fst_reached hmem]
    have hother : h.isTerminal = false := by simpa using hterminal
    rw [routes]
    generalize (addresses isTerminal (listing keep handlers address index)).find? answers = first
    cases first <;> simp [hcalls, reached, hother]
  once := by
    have hlisted : ((listing keep handlers address index).map Prod.fst).Nodup := by
      apply (List.pairwise_map.mpr listing_pairwise).imp
      rintro a _ hlt rfl
      exact List.lt_irrefl a hlt
    have hvisited : ((tour keep handlers address index).map Prod.fst).Nodup :=
      (tour_perm.map Prod.fst).nodup_iff.mpr
        (hlisted.sublist (List.filter_sublist.map Prod.fst))
    exact hvisited.sublist (List.filter_sublist.map Prod.fst)
  callees a ha := by
    obtain ⟨⟨_, h⟩, hvisited, rfl⟩ := List.mem_map.mp ha
    have hmem := (List.mem_filter.mp hvisited).1
    obtain ⟨hlisted, hcalls⟩ := List.mem_filter.mp (tour_perm.mem_iff.mp hmem)
    refine ⟨h, hlisted, ?_⟩
    by_cases hterminal : h.isTerminal
    · exact .inl hterminal
    · exact .inr (by simpa [wraps, hterminal] using hcalls)
  openers_in_order := by
    rw [filter_mem_addresses fun h hopens => hopens, addresses, List.filter_map]
    congr 1
    apply List.filter_congr
    intro x hx
    obtain ⟨hlisted, hopens⟩ := List.mem_filter.mp hx
    have hcalled (first : Option Address) :
        x.1 ∈ ((tour keep handlers address index).filter (reached first)).map Prod.fst ↔
          reached first x := by
      rw [mem_map_fst_reached hlisted, hopens, Bool.true_or]
      exact and_iff_right rfl
    rw [Bool.eq_iff_iff, Function.comp_apply, decide_eq_true_eq]
    exact (hcalled _).symm
  closers_last := by
    refine List.pairwise_map.mpr ((tour_pairwise.filter _).imp_of_mem ?_)
    intro x y hx _ hbehind hcloses
    have hlisted := mem_listing_of_mem_tour (List.mem_filter.mp hx).1
    exact hbehind ((mem_addresses_iff hlisted).mp hcloses)

end Reached

end Handler

end RequestRouting
