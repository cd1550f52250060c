import RequestRouting.Proofs.Rounds

/-!
# What expressions match

Matching finds exactly what an expression spans: the places that `Regex.outcomes` lists are behind
spans, at each position that a span leads to there is one of them, and on the way only groups of the
expression capture something (`faithful_outcomes`).
-/

namespace RequestRouting.Regex

variable {text : List Char} {groups others : List (Nat × Option String)}
  {first second : Nat → Nat → Prop}

/-! ## Parts of expressions -/

theorem exists_mem_distinct {places : List Place} {p : Place} (hp : p ∈ places) :
    ∃ q ∈ distinct places, q.index = p.index := by
  have hfind := (prefers_distinct places).find (· == p.index)
  have hsome : (places.find? fun q => q.index == p.index).isSome = true :=
    List.find?_isSome.mpr ⟨p, hp, beq_self_eq_true p.index⟩
  rw [← hfind] at hsome
  obtain ⟨q, hq, hindex⟩ := List.find?_isSome.mp hsome
  exact ⟨q, hq, eq_of_beq hindex⟩

theorem mem_of_mem_distinct {places : List Place} {p : Place} (hp : p ∈ distinct places) :
    p ∈ places :=
  distinctFrom_subset 0 places hp

theorem Faithful.mono {body : List Place → List Place} (hbody : Faithful text groups first body)
    (hgroups : groups ⊆ others) : Faithful text others first body where
  sound places hplaces q hq := by
    obtain ⟨p, hp, hreaches⟩ := hbody.sound places hplaces q hq
    exact ⟨p, hp, hreaches.mono hgroups fun _ _ => id⟩
  complete := hbody.complete

theorem faithful_empty (text : List Char) :
    Faithful text empty.groups (empty.Spans text) empty.outcomes where
  sound places hplaces q hq := ⟨q, hq, hplaces q hq, rfl, [], rfl, List.forall_mem_nil _⟩
  complete := by
    rintro places _ p hp stop rfl
    exact ⟨p, hp, rfl⟩

theorem faithful_chars (text : List Char) (set : CharSet) :
    Faithful text (chars set).groups ((chars set).Spans text) (chars set).outcomes where
  sound := by
    intro places hplaces q hq
    obtain ⟨p, hp, htake⟩ := List.mem_filterMap.mp hq
    have hwithin := hplaces p hp
    cases hrest : p.rest with
    | nil => simp [Place.take?, hrest] at htake
    | cons c rest =>
        have hdrop : text.drop p.index = c :: rest := hwithin.rest.symm.trans hrest
        have hchar : text[p.index]? = some c := by rw [← hwithin.head?, hrest]; rfl
        have hlt := (List.getElem?_eq_some_iff.mp hchar).1
        by_cases hset : set.contains c = true
        · simp only [Place.take?, hrest, hset, if_true, Option.some.injEq] at htake
          subst htake
          refine ⟨p, hp, ⟨⟨?_, hlt⟩, hchar.symm⟩, ⟨rfl, c, hchar, hset⟩, [], rfl,
            List.forall_mem_nil _⟩
          rw [← List.drop_drop, hdrop]
          rfl
        · simp [Place.take?, hrest, hset] at htake
  complete := by
    rintro places hplaces p hp stop ⟨rfl, c, hc, hset⟩
    have hhead := (hplaces p hp).head?.trans hc
    obtain ⟨rest, hrest⟩ := List.head?_eq_some_iff.mp hhead
    refine ⟨⟨some c, rest, p.index + 1, p.captures⟩, List.mem_filterMap.mpr ⟨p, hp, ?_⟩, rfl⟩
    simp [Place.take?, hrest, hset]

theorem faithful_look (text : List Char) (condition : Look) :
    Faithful text (look condition).groups ((look condition).Spans text)
      (look condition).outcomes where
  sound := by
    intro places hplaces p hmem
    obtain ⟨hp, hholds⟩ := List.mem_filter.mp hmem
    have hwithin := hplaces p hp
    rw [hwithin.before, hwithin.head?] at hholds
    exact ⟨p, hp, hwithin, ⟨rfl, hholds⟩, [], rfl, List.forall_mem_nil _⟩
  complete := by
    rintro places hplaces p hp stop ⟨rfl, hholds⟩
    have hwithin := hplaces p hp
    rw [← hwithin.before, ← hwithin.head?] at hholds
    exact ⟨p, List.mem_filter.mpr ⟨hp, hholds⟩, rfl⟩

theorem faithful_alt {r s : Regex} (hr : Faithful text groups first r.outcomes)
    (hs : Faithful text groups second s.outcomes) :
    Faithful text groups (fun start stop => first start stop ∨ second start stop)
      (alt r s).outcomes where
  sound := by
    intro places hplaces q hq
    obtain ⟨p, hp, hq⟩ := List.mem_flatMap.mp (mem_of_mem_distinct hq)
    refine ⟨p, hp, ?_⟩
    rcases List.mem_append.mp hq with hq | hq
    · exact (hr.sound_single (hplaces p hp) hq).mono (List.Subset.refl _) fun _ _ => .inl
    · exact (hs.sound_single (hplaces p hp) hq).mono (List.Subset.refl _) fun _ _ => .inr
  complete := by
    intro places hplaces p hp stop hspans
    have hfound : ∃ q ∈ r.outcomes [p] ++ s.outcomes [p], q.index = stop := by
      rcases hspans with hspans | hspans
      · obtain ⟨q, hq, hindex⟩ := hr.complete_single (hplaces p hp) hspans
        exact ⟨q, List.mem_append_left _ hq, hindex⟩
      · obtain ⟨q, hq, hindex⟩ := hs.complete_single (hplaces p hp) hspans
        exact ⟨q, List.mem_append_right _ hq, hindex⟩
    obtain ⟨q, hq, rfl⟩ := hfound
    exact exists_mem_distinct (List.mem_flatMap.mpr ⟨p, hp, hq⟩)

/-- What a group captures last is what its body spans. -/
theorem exists_of_mem_outcomes_group {r : Regex} (hr : Faithful text groups first r.outcomes)
    {number : Nat} {name : Option String} {places : List Place}
    (hplaces : ∀ p ∈ places, p.Within text) {q : Place}
    (hq : q ∈ (group number name r).outcomes places) :
    ∃ p ∈ places, q.Within text ∧ first p.index q.index ∧ ∃ added,
      q.captures = ⟨number, p.index, q.index⟩ :: (added ++ p.captures) ∧
        ∀ capture ∈ added, ∃ name, (capture.number, name) ∈ groups := by
  obtain ⟨p, hp, hq⟩ := List.mem_flatMap.mp (mem_of_mem_distinct hq)
  obtain ⟨inner, hinner, rfl⟩ := List.mem_map.mp hq
  obtain ⟨hwithin, hspans, added, hadded, hnumbers⟩ := hr.sound_single (hplaces p hp) hinner
  exact ⟨p, hp, hwithin.capture number p, hspans, added, congrArg _ hadded, hnumbers⟩

theorem faithful_group {r : Regex} (hr : Faithful text groups first r.outcomes) (number : Nat)
    (name : Option String) :
    Faithful text ((number, name) :: groups) first (group number name r).outcomes where
  sound := by
    intro places hplaces q hq
    obtain ⟨p, hp, hwithin, hspans, added, hadded, hnumbers⟩ :=
      exists_of_mem_outcomes_group hr hplaces hq
    refine ⟨p, hp, hwithin, hspans, ⟨number, p.index, q.index⟩ :: added, hadded, ?_⟩
    refine List.forall_mem_cons.mpr ⟨⟨name, List.mem_cons_self⟩, fun capture hmem => ?_⟩
    obtain ⟨other, hother⟩ := hnumbers capture hmem
    exact ⟨other, .tail _ hother⟩
  complete := by
    intro places hplaces p hp stop hspans
    obtain ⟨q, hq, rfl⟩ := hr.complete_single (hplaces p hp) hspans
    have hcapture : Place.capture number p q ∈
        places.flatMap fun p => (r.outcomes [p]).map (Place.capture number p) :=
      List.mem_flatMap.mpr ⟨p, hp, List.mem_map_of_mem hq⟩
    have hfound := exists_mem_distinct hcapture
    exact hfound

theorem faithful_many {r : Regex} (hr : Faithful text groups first r.outcomes)
    (hahead : Ahead text first) (least : Nat) (most : Option Nat) (greedy : Bool) :
    Faithful text groups (fun start stop => ∃ rounds, least ≤ rounds ∧
      (∀ bound ∈ most, rounds ≤ max least bound) ∧ InRounds first rounds start stop)
      (many least most greedy r).outcomes where
  sound := by
    intro places hplaces q hq
    obtain ⟨n, ⟨hleast, hmost⟩, p, hp, hreaches⟩ :=
      (hr.repeated hplaces hahead least most greedy).sound q hq
    exact ⟨p, hp, hreaches.mono (List.Subset.refl _) fun _ _ h => ⟨n, hleast, hmost, h⟩⟩
  complete := by
    rintro places hplaces p hp stop ⟨n, hleast, hmost, hrounds⟩
    exact (hr.repeated hplaces hahead least most greedy).complete p hp n stop ⟨hleast, hmost⟩
      hrounds

/-! ## Expressions -/

/-- Matching finds what an expression spans, and nothing else. -/
theorem faithful_outcomes (text : List Char) (r : Regex) :
    Faithful text r.groups (r.Spans text) r.outcomes := by
  induction r with
  | empty => exact faithful_empty text
  | chars set => exact faithful_chars text set
  | look condition => exact faithful_look text condition
  | seq first second ihFirst ihSecond =>
      exact (ihFirst.mono (List.subset_append_left _ _)).comp
        (ihSecond.mono (List.subset_append_right _ _))
  | alt first second ihFirst ihSecond =>
      exact faithful_alt (ihFirst.mono (List.subset_append_left _ _))
        (ihSecond.mono (List.subset_append_right _ _))
  | group number name body ih => exact faithful_group ih number name
  | many least most greedy body ih =>
      exact faithful_many ih (ahead_spans text body) least most greedy

end RequestRouting.Regex
