import RequestRouting.Proofs.Addresses

/-!
# The order of handlers

Addresses are ordered like the words of a dictionary, which puts the handlers of a tree
into pre-order. Beside it stands the order in which a dispatch calls the handlers if none
of them answers: `Handler.tour` has routes and filters at their place in pre-order, and
each `after` handler behind everything that stands behind it in its chain.
-/

namespace RequestRouting

variable {E W : Type}

namespace Address

/-- Whether an address is behind another one in its chain: the address of a handler that
comes later in the chain, or of one inside such a handler. -/
def behind : Address → Address → Bool
  | i :: route, j :: a => if route = [] then decide (i < j) else i == j && behind route a
  | [], _ | _ :: _, [] => false

variable {address route a : Address} {index : Nat}

theorem behind_append (hroute : route ≠ []) :
    behind (address ++ route) (address ++ a) = behind route a := by
  induction address with
  | nil => rfl
  | cons i address ih => simp [behind, hroute, ih]

/-- An address is behind another one if it lies within the rest of its chain. -/
theorem behind_iff :
    behind route a ↔
      ∃ address index, route = address ++ [index] ∧ Within address (index + 1) a := by
  constructor
  · induction route generalizing a with
    | nil => simp [behind]
    | cons i route ih =>
        intro hbehind
        cases a with
        | nil => simp [behind] at hbehind
        | cons j a =>
            by_cases hroute : route = []
            · subst hroute
              simp only [behind, if_true, decide_eq_true_eq] at hbehind
              exact ⟨[], i, rfl, j, a, hbehind, rfl⟩
            · simp only [behind, hroute, if_false, Bool.and_eq_true, beq_iff_eq] at hbehind
              obtain ⟨rfl, hbehind⟩ := hbehind
              obtain ⟨address, index, rfl, place, inner, hplace, rfl⟩ := ih hbehind
              exact ⟨i :: address, index, rfl, place, inner, hplace, rfl⟩
  · rintro ⟨address, index, rfl, place, inner, hplace, rfl⟩
    rw [behind_append (by simp)]
    simp only [behind, if_true, decide_eq_true_eq]
    exact hplace

theorem append_lt_append_iff : address ++ route < address ++ a ↔ route < a := by
  induction address with
  | nil => rfl
  | cons i address ih => simp [ih]

/-! A handler, what is inside it and what is behind it in its chain. -/

theorem Within.lt (hwithin : Within address (index + 1) a) : address ++ [index] < a := by
  obtain ⟨place, inner, hplace, rfl⟩ := hwithin
  rw [append_lt_append_iff, List.cons_lt_cons_iff]
  exact .inl hplace

theorem Within.lt_inside {place : Nat} (hwithin : Within (address ++ [index]) place a) :
    address ++ [index] < a := by
  obtain ⟨place, inner, _, rfl⟩ := hwithin
  rw [List.append_assoc, append_lt_append_iff]
  simp

theorem Within.lt_later {place : Nat} (hroute : Within (address ++ [index]) place route)
    (hwithin : Within address (index + 1) a) : route < a := by
  obtain ⟨place, inner, _, rfl⟩ := hroute
  obtain ⟨later, tail, hlater, rfl⟩ := hwithin
  rw [List.append_assoc, append_lt_append_iff, List.singleton_append, List.cons_lt_cons_iff]
  exact .inl hlater

theorem Within.behind_self (hwithin : Within address (index + 1) a) :
    behind (address ++ [index]) a :=
  behind_iff.mpr ⟨address, index, rfl, hwithin⟩

theorem Within.not_behind (hroute : Within address (index + 1) route) :
    behind route (address ++ [index]) = false := by
  obtain ⟨place, inner, hplace, rfl⟩ := hroute
  rw [behind_append (by simp)]
  by_cases hinner : inner = [] <;> simp [behind, hinner] <;> omega

theorem Within.not_behind_inside {place : Nat} (hroute : Within address (index + 1) route)
    (hwithin : Within (address ++ [index]) place a) : behind route a = false := by
  obtain ⟨later, tail, hlater, rfl⟩ := hroute
  obtain ⟨place, inner, _, rfl⟩ := hwithin
  rw [List.append_assoc, behind_append (by simp), List.singleton_append]
  by_cases htail : tail = [] <;> simp [behind, htail] <;> omega

theorem Within.not_behind_later {place : Nat} (hroute : Within (address ++ [index]) place route)
    (hwithin : Within address (index + 1) a) : behind route a = false := by
  obtain ⟨place, inner, _, rfl⟩ := hroute
  obtain ⟨later, tail, hlater, rfl⟩ := hwithin
  rw [List.append_assoc, behind_append (by simp), List.singleton_append]
  have hne : index ≠ later := by omega
  simp [behind, hne]

end Address

open Address

namespace Handler

/-- The handler calls its callback before it runs the rest of its chain. -/
def opens : Handler E W → Bool
  | on _ _ | filter _ _ => true
  | after _ _ | recover _ _ _ _ | group _ _ => false

/-- The handler calls its callback when the rest of its chain has been run, whatever came
of that. -/
def closes : Handler E W → Bool
  | after _ _ => true
  | on _ _ | filter _ _ | recover _ _ _ _ | group _ _ => false

/-- The order in which the callbacks of the handlers that are kept are called if no
context is answered or failed. -/
def tour (keep : Handler E W → Bool) :
    List (Handler E W) → Address → Nat → List (Address × Handler E W)
  | [], _, _ => []
  | h :: rest, address, index =>
      if keep h then
        (if h.opens then [(address ++ [index], h)] else []) ++
          tour keep h.inside (address ++ [index]) 0 ++ tour keep rest address (index + 1) ++
          (if h.closes then [(address ++ [index], h)] else [])
      else tour keep rest address (index + 1)
termination_by handlers => sizeOf handlers
decreasing_by
  · exact sizeOf_inside_lt h rest
  · exact sizeOf_rest_lt h rest
  · exact sizeOf_rest_lt h rest

variable {keep : Handler E W → Bool} {handlers : List (Handler E W)} {address a : Address}
  {index : Nat}

@[simp]
theorem tour_nil : tour keep [] address index = [] := by
  rw [tour]

theorem tour_cons (h : Handler E W) (rest : List (Handler E W)) :
    tour keep (h :: rest) address index =
      if keep h then
        (if h.opens then [(address ++ [index], h)] else []) ++
          tour keep h.inside (address ++ [index]) 0 ++ tour keep rest address (index + 1) ++
          (if h.closes then [(address ++ [index], h)] else [])
      else tour keep rest address (index + 1) := by
  rw [tour]

theorem opens_of_isTerminal (h : Handler E W) (hterminal : h.isTerminal) : h.opens := by
  cases h <;> first | rfl | cases hterminal

theorem closes_eq_false_of_opens {h : Handler E W} (hopens : h.opens) : h.closes = false := by
  cases h <;> first | rfl | cases hopens

theorem inside_eq_nil_of_closes {h : Handler E W} (hcloses : h.closes) : h.inside = [] := by
  cases h <;> first | rfl | cases hcloses

theorem inside_eq_nil_of_callback {h : Handler E W} (hcallback : h.callback?.isSome) :
    h.inside = [] := by
  cases h <;> first | rfl | cases hcallback

/-- What a tour calls at a handler that is not a group, of the handlers chosen. -/
theorem map_filter_tour_cons {h : Handler E W} {rest : List (Handler E W)}
    {chosen : Address × Handler E W → Bool} (hkeep : keep h) (hcallback : h.callback?.isSome)
    (hchosen : chosen (address ++ [index], h)) :
    ((tour keep (h :: rest) address index).filter chosen).map Prod.fst =
      (if h.opens then [address ++ [index]] else []) ++
        ((tour keep rest address (index + 1)).filter chosen).map Prod.fst ++
        (if h.closes then [address ++ [index]] else []) := by
  rw [tour_cons, if_pos hkeep, inside_eq_nil_of_callback hcallback, tour_nil]
  by_cases hopens : h.opens <;> by_cases hcloses : h.closes <;> simp [hopens, hcloses, hchosen]

/-- What a tour calls in and behind a group, of the handlers chosen. -/
theorem map_filter_tour_group {p : Predicate E} {handlers rest : List (Handler E W)}
    {chosen : Address × Handler E W → Bool} (hkeep : keep (group p handlers)) :
    ((tour keep (group p handlers :: rest) address index).filter chosen).map Prod.fst =
      ((tour keep handlers (address ++ [index]) 0).filter chosen).map Prod.fst ++
        ((tour keep rest address (index + 1)).filter chosen).map Prod.fst := by
  rw [tour_cons, if_pos hkeep]
  simp [opens, closes, inside]

/-- A tour visits each handler of the listing that has a call to make, once. -/
theorem tour_perm :
    (tour keep handlers address index).Perm
      ((listing keep handlers address index).filter fun x => x.2.opens || x.2.closes) := by
  induction handlers using chainInduction generalizing address index with
  | nil => simp
  | cons h rest ihInside ihRest =>
      rw [tour_cons, listing_cons]
      by_cases hkeep : keep h
      · rw [if_pos hkeep, if_pos hkeep, List.filter_append, List.filter_cons]
        have hboth := (@ihInside (address ++ [index]) 0).append (@ihRest address (index + 1))
        by_cases hopens : h.opens
        · have hcloses := closes_eq_false_of_opens hopens
          simpa [hopens, hcloses] using hboth
        · by_cases hcloses : h.closes
          · simp only [hopens, hcloses, if_true, Bool.or_true, List.cons_append]
            exact (List.perm_append_singleton _ _).trans (hboth.cons _)
          · simpa [hopens, hcloses] using hboth
      · rw [if_neg hkeep, if_neg hkeep]
        exact ihRest

/-- Handlers that call first are visited in the order of the listing. -/
theorem filter_tour {chosen : Handler E W → Bool} (hopens : ∀ h, chosen h → h.opens) :
    (tour keep handlers address index).filter (fun x => chosen x.2) =
      (listing keep handlers address index).filter fun x => chosen x.2 := by
  induction handlers using chainInduction generalizing address index with
  | nil => simp
  | cons h rest ihInside ihRest =>
      rw [tour_cons, listing_cons]
      by_cases hkeep : keep h
      · rw [if_pos hkeep, if_pos hkeep]
        by_cases hopen : h.opens
        · have hcloses := closes_eq_false_of_opens hopen
          by_cases hchosen : chosen h <;> simp [hopen, hcloses, hchosen, ihInside, ihRest]
        · have hchosen : chosen h = false := Bool.eq_false_iff.mpr fun hchosen =>
            hopen (hopens h hchosen)
          by_cases hcloses : h.closes <;> simp [hopen, hcloses, hchosen, ihInside, ihRest]
      · rw [if_neg hkeep, if_neg hkeep]
        exact ihRest

theorem mem_listing_of_mem_tour {x : Address × Handler E W}
    (hmem : x ∈ tour keep handlers address index) : x ∈ listing keep handlers address index :=
  (List.mem_filter.mp (tour_perm.mem_iff.mp hmem)).1

theorem within_of_mem_tour {h : Handler E W}
    (hmem : (a, h) ∈ tour keep handlers address index) : Within address index a :=
  within_of_mem_listing (mem_listing_of_mem_tour hmem)

/-- What is visited after a handler that calls last is not behind it. -/
theorem tour_pairwise :
    (tour keep handlers address index).Pairwise fun x y => x.2.closes → behind x.1 y.1 = false := by
  induction handlers using chainInduction generalizing address index with
  | nil => simp
  | cons h rest ihInside ihRest =>
      rw [tour_cons]
      by_cases hkeep : keep h
      · rw [if_pos hkeep, List.append_assoc, List.append_assoc, List.pairwise_append]
        refine ⟨by split <;> simp, ?_, ?_⟩
        · rw [List.pairwise_append, List.pairwise_append]
          refine ⟨ihInside, ⟨ihRest, by split <;> simp, ?_⟩, ?_⟩
          · rintro ⟨a, listed⟩ hmem y hy _
            split at hy
            · rw [List.mem_singleton] at hy
              subst hy
              exact (within_of_mem_tour hmem).not_behind
            · cases hy
          · rintro ⟨a, listed⟩ hinside ⟨b, later⟩ hlater _
            rcases List.mem_append.mp hlater with hlater | hlast
            · exact (within_of_mem_tour hinside).not_behind_later (within_of_mem_tour hlater)
            · split at hlast
              · rename_i hcloses
                rw [inside_eq_nil_of_closes hcloses, tour_nil] at hinside
                cases hinside
              · cases hlast
        · intro x hx y _ hcloses
          split at hx
          · rename_i hopens
            rw [List.mem_singleton] at hx
            subst hx
            rw [closes_eq_false_of_opens hopens] at hcloses
            cases hcloses
          · cases hx
      · rw [if_neg hkeep]
        exact ihRest

/-- A listing is in the order of the addresses. -/
theorem listing_pairwise :
    (listing keep handlers address index).Pairwise fun x y => x.1 < y.1 := by
  induction handlers using chainInduction generalizing address index with
  | nil => simp
  | cons h rest ihInside ihRest =>
      rw [listing_cons, List.pairwise_append]
      refine ⟨?_, ihRest, ?_⟩
      · split
        · rw [List.pairwise_cons]
          refine ⟨?_, ihInside⟩
          rintro ⟨a, listed⟩ hmem
          exact (within_of_mem_listing hmem).lt_inside
        · exact .nil
      · rintro ⟨a, listed⟩ hmem ⟨b, later⟩ hlater
        have hlaterWithin := within_of_mem_listing hlater
        split at hmem
        · rcases List.mem_cons.mp hmem with heq | hinside
          · cases heq
            exact hlaterWithin.lt
          · exact (within_of_mem_listing hinside).lt_later hlaterWithin
        · cases hmem

end Handler

end RequestRouting
