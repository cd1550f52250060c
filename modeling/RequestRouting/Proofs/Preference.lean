import RequestRouting.Proofs.Matching

/-!
# Preferred ways through a text

Of several ways to the same place in a text, matching keeps the preferred one. Here it is shown
that this changes nothing about what is found in the end: a list of places in which duplicates
have been left out (`distinct`) gives the same first place as the list of all ways does, whatever
positions are asked for (`Prefers`). What is matched from there on depends on the position only,
so the relation is kept by each further step (`Prefers.flatMap`).

A greedy run takes what it can and then gives back one character after the other
(`outcomes_many_zero`, `outcomes_many_one`); `runs` lists what it takes, the longest first.
-/

namespace RequestRouting

namespace Regex

/-! ## Places of a text -/

/-- The place after the given characters. -/
def Place.advance (p : Place) : List Char → Place
  | [] => p
  | c :: piece => Place.advance ⟨some c, p.rest.drop 1, p.index + 1, p.captures⟩ piece

@[simp] theorem Place.index_advance (p : Place) (piece : List Char) :
    (p.advance piece).index = p.index + piece.length := by
  induction piece generalizing p with
  | nil => rfl
  | cons c piece ih =>
      rw [advance, ih, List.length_cons]
      exact Nat.add_right_comm ..

@[simp] theorem Place.rest_advance (p : Place) (piece : List Char) :
    (p.advance piece).rest = p.rest.drop piece.length := by
  induction piece generalizing p with
  | nil => rfl
  | cons c piece ih => rw [advance, ih, List.drop_drop, Nat.add_comm, List.length_cons]

@[simp] theorem Place.captures_advance (p : Place) (piece : List Char) :
    (p.advance piece).captures = p.captures := by
  induction piece generalizing p with
  | nil => rfl
  | cons c piece ih => rw [advance, ih]

/-- The place is one of the given text. -/
structure Place.On (text : List Char) (p : Place) : Prop where
  rest : p.rest = text.drop p.index
  inside : p.index ≤ text.length

theorem Place.on_atStart (text : List Char) : (atStart text).On text := ⟨rfl, Nat.zero_le _⟩

theorem Place.On.advance {text piece : List Char} {p : Place} (hp : p.On text)
    (hpiece : piece <+: p.rest) : (p.advance piece).On text where
  rest := by rw [rest_advance, index_advance, hp.rest, List.drop_drop]
  inside := by
    have hlength := hpiece.length_le
    rw [hp.rest, List.length_drop] at hlength
    have hinside := hp.inside
    rw [index_advance]
    omega

/-! ## Preference -/

/-- The places of the first list are among those of the second one, and in both lists the first
place at a position that is asked for is the same. -/
structure Prefers (places ways : List Place) : Prop where
  subset : places ⊆ ways
  find : ∀ wanted : Nat → Bool,
    places.find? (fun p => wanted p.index) = ways.find? (fun p => wanted p.index)

namespace Prefers

variable {places ways others : List Place}

theorem refl (places : List Place) : Prefers places places := ⟨List.Subset.refl _, fun _ => rfl⟩

theorem trans (hfirst : Prefers places ways) (hsecond : Prefers ways others) :
    Prefers places others :=
  ⟨List.Subset.trans hfirst.subset hsecond.subset, fun wanted =>
    (hfirst.find wanted).trans (hsecond.find wanted)⟩

end Prefers

theorem testBit_or_shiftLeft_one (seen position other : Nat) :
    (seen ||| 1 <<< position).testBit other = (seen.testBit other || position == other) := by
  rw [Nat.testBit_or, Nat.one_shiftLeft, Nat.testBit_two_pow]
  rfl

theorem distinctFrom_subset (seen : Nat) (places : List Place) :
    distinctFrom seen places ⊆ places := by
  induction places generalizing seen with
  | nil => exact List.Subset.refl _
  | cons p places ih =>
      rw [distinctFrom]
      split
      · exact List.Subset.trans (ih seen) (List.subset_cons_self _ _)
      · exact List.cons_subset_cons _ (ih _)

theorem find?_distinctFrom (seen : Nat) (places : List Place) (wanted : Nat → Bool)
    (hfresh : ∀ i, wanted i = true → seen.testBit i = false) :
    (distinctFrom seen places).find? (fun p => wanted p.index) =
      places.find? (fun p => wanted p.index) := by
  induction places generalizing seen with
  | nil => rfl
  | cons p places ih =>
      rw [distinctFrom]
      cases hwanted : wanted p.index with
      | true =>
          rw [hfresh _ hwanted, if_neg Bool.false_ne_true, List.find?_cons, List.find?_cons,
            hwanted]
      | false =>
          rw [List.find?_cons, hwanted]
          split
          · exact ih seen hfresh
          · rw [List.find?_cons, hwanted]
            refine ih _ fun i hi => ?_
            have hother : (p.index == i) = false := by
              refine beq_false_of_ne fun heq => ?_
              rw [← heq, hwanted] at hi
              cases hi
            rw [testBit_or_shiftLeft_one, hfresh i hi, hother]
            rfl

/-- Leaving out duplicates keeps the preferred places. -/
theorem prefers_distinct (places : List Place) : Prefers (distinct places) places :=
  ⟨distinctFrom_subset 0 places, fun wanted =>
    find?_distinctFrom 0 places wanted fun i _ => Nat.zero_testBit i⟩

/-- A step that gets to positions that depend on where it starts only. -/
theorem Prefers.flatMap {places ways : List Place} (hprefers : Prefers places ways)
    {onward : Place → List Place} (ends : Nat → List Nat)
    (honward : ∀ p ∈ ways, (onward p).map (·.index) = ends p.index) :
    Prefers (places.flatMap onward) (ways.flatMap onward) where
  subset := by
    intro q hq
    obtain ⟨p, hp, hq⟩ := List.mem_flatMap.mp hq
    exact List.mem_flatMap.mpr ⟨p, hprefers.subset hp, hq⟩
  find := by
    intro wanted
    have hleads (p : Place) (hp : p ∈ ways) :
        ((onward p).find? fun q => wanted q.index).isSome = (ends p.index).any wanted := by
      rw [← honward p hp, List.any_map, Bool.eq_iff_iff, List.find?_isSome, List.any_eq_true]
      rfl
    -- The first place that leads on is the same, as its position decides whether it does.
    have hfirst (list : List Place) (hlist : list ⊆ ways) :
        (list.flatMap onward).find? (fun q => wanted q.index) =
          (list.find? fun p => (ends p.index).any wanted).bind fun p =>
            (onward p).find? fun q => wanted q.index := by
      induction list with
      | nil => rfl
      | cons p list ih =>
          have hp := hleads p (hlist List.mem_cons_self)
          rw [List.flatMap_cons, List.find?_append, ih fun q hq => hlist (.tail _ hq)]
          cases hreach : (ends p.index).any wanted with
          | true =>
              rw [hreach] at hp
              obtain ⟨q, hq⟩ := Option.isSome_iff_exists.mp hp
              rw [List.find?_cons, hreach, hq]
              exact hq.symm
          | false =>
              rw [hreach, Option.isSome_eq_false_iff, Option.isNone_iff_eq_none] at hp
              rw [List.find?_cons, hreach, hp]
              rfl
    rw [hfirst places hprefers.subset, hfirst ways (List.Subset.refl _),
      hprefers.find fun i => (ends i).any wanted]

/-! ## Greedy runs -/

/-- The runs of one or more characters of a set at the start of a text, the longest first. -/
def someRuns (set : CharSet) : List Char → List (List Char)
  | [] => []
  | c :: text => if set.contains c then (someRuns set text ++ [[]]).map (c :: ·) else []

/-- The runs of any number of characters, the longest first. -/
def runs (set : CharSet) (text : List Char) : List (List Char) := someRuns set text ++ [[]]

theorem mem_someRuns {set : CharSet} {text piece : List Char} :
    piece ∈ someRuns set text ↔
      piece ≠ [] ∧ (∀ c ∈ piece, set.contains c = true) ∧ piece <+: text := by
  induction text generalizing piece with
  | nil =>
      have hnil : piece <+: ([] : List Char) ↔ piece = [] := List.prefix_nil
      simp only [someRuns, List.not_mem_nil, false_iff, hnil]
      exact fun h => h.1 h.2.2
  | cons c text ih =>
      rw [someRuns]
      by_cases hc : set.contains c = true
      · rw [if_pos hc]
        cases piece with
        | nil => simp
        | cons d piece =>
            by_cases hempty : piece = []
            · subst hempty
              simp [List.cons_prefix_cons]
              grind
            · simp only [List.map_append, List.map_cons, List.map_nil, List.mem_append,
                List.mem_map, ih, List.cons_prefix_cons, List.mem_singleton, List.forall_mem_cons]
              grind
      · rw [if_neg hc]
        cases piece with
        | nil => simp
        | cons d piece =>
            simp only [List.not_mem_nil, false_iff, List.cons_prefix_cons, List.forall_mem_cons]
            rintro ⟨_, ⟨hd, _⟩, rfl, _⟩
            exact hc hd

theorem mem_runs {set : CharSet} {text piece : List Char} :
    piece ∈ runs set text ↔ (∀ c ∈ piece, set.contains c = true) ∧ piece <+: text := by
  rw [runs, List.mem_append, mem_someRuns, List.mem_singleton]
  by_cases hempty : piece = []
  · subst hempty
    simp
  · simp [hempty]

theorem pairwise_someRuns (set : CharSet) (text : List Char) :
    (someRuns set text).Pairwise fun longer shorter => shorter.length < longer.length := by
  induction text with
  | nil => exact .nil
  | cons c text ih =>
      rw [someRuns]
      split
      · rw [List.pairwise_map]
        refine (List.pairwise_append.mpr ⟨ih, List.pairwise_singleton _ _, ?_⟩).imp
          fun hshorter => Nat.succ_lt_succ hshorter
        intro longer hlonger shorter hshorter
        rw [List.mem_singleton.mp hshorter]
        exact List.length_pos_iff.mpr (mem_someRuns.mp hlonger).1
      · exact .nil

theorem pairwise_runs (set : CharSet) (text : List Char) :
    (runs set text).Pairwise fun longer shorter => shorter.length < longer.length := by
  refine List.pairwise_append.mpr ⟨pairwise_someRuns set text, List.pairwise_singleton _ _, ?_⟩
  intro longer hlonger shorter hshorter
  rw [List.mem_singleton.mp hshorter]
  exact List.length_pos_iff.mpr (mem_someRuns.mp hlonger).1

section Rounds

variable (set : CharSet)

theorem Found.add_of_not_has {found : Found} {p : Place}
    (hnew : found.seen.testBit p.index = false) :
    (found.add p).toList = found.toList ++ [p] ∧
      ∀ i, i < p.index → (found.add p).seen.testBit i = found.seen.testBit i := by
  unfold add has
  rw [hnew, if_neg Bool.false_ne_true]
  refine ⟨List.reverse_cons, fun i hi => ?_⟩
  have hother : (p.index == i) = false := beq_false_of_ne (Nat.ne_of_gt hi)
  rw [testBit_or_shiftLeft_one, hother, Bool.or_false]

theorem outcomes_chars_singleton (p : Place) :
    (chars set).outcomes [p] =
      match p.rest with
      | c :: _ => if set.contains c then [p.advance [c]] else []
      | [] => [] := by
  cases hrest : p.rest with
  | nil => simp [outcomes, Place.take?, hrest]
  | cons c rest =>
      by_cases hc : set.contains c = true <;>
        simp [outcomes, Place.take?, Place.advance, hrest, hc]

/-- Further rounds of a greedy run add what it can take, the longest first. Positions from here on
are new. -/
theorem furtherRounds_chars (fuel : Nat) (found : Found) (p : Place)
    (hfuel : p.rest.length ≤ fuel)
    (hnew : ∀ i, p.index ≤ i → found.seen.testBit i = false) :
    (furtherRounds (chars set).outcomes true fuel found p).toList =
        found.toList ++ (runs set p.rest).map p.advance ∧
      ∀ i, i < p.index →
        (furtherRounds (chars set).outcomes true fuel found p).seen.testBit i =
          found.seen.testBit i := by
  have hhere := Found.add_of_not_has (hnew p.index (Nat.le_refl _))
  induction fuel generalizing found p with
  | zero =>
      have hrest : p.rest = [] := List.eq_nil_of_length_eq_zero (Nat.le_zero.mp hfuel)
      rw [furtherRounds, hrest]
      exact hhere
  | succ fuel ih =>
      have hhas : found.has p = false := hnew p.index (Nat.le_refl _)
      rw [furtherRounds, hhas, if_neg Bool.false_ne_true, if_pos rfl, outcomes_chars_singleton]
      cases hrest : p.rest with
      | nil => exact hhere
      | cons c rest =>
          dsimp only
          by_cases hc : set.contains c = true
          · have hindex : (p.advance [c]).index = p.index + 1 := Place.index_advance p [c]
            have honward : (p.advance [c]).rest = rest := by rw [Place.rest_advance, hrest]; rfl
            have hlater (i : Nat) (hi : (p.advance [c]).index ≤ i) :
                found.seen.testBit i = false := hnew i (by omega)
            rw [hrest, List.length_cons] at hfuel
            obtain ⟨hlist, hseen⟩ := ih found (p.advance [c]) (by rw [honward]; omega) hlater
              (Found.add_of_not_has (hlater _ (Nat.le_refl _)))
            have hfilter : [p.advance [c]].filter (·.index != p.index) = [p.advance [c]] := by
              simp
            rw [if_pos hc, hfilter, List.foldl_cons, List.foldl_nil]
            have hback : (furtherRounds (chars set).outcomes true fuel found
                (p.advance [c])).seen.testBit p.index = false := by
              rw [hseen _ (by omega)]
              exact hnew _ (Nat.le_refl _)
            obtain ⟨hadd, hkept⟩ := Found.add_of_not_has hback
            refine ⟨?_, fun i hi => by rw [hkept i hi, hseen i (by omega)]⟩
            have hruns : runs set (c :: rest) = (runs set rest).map (c :: ·) ++ [[]] := by
              rw [runs, someRuns, if_pos hc]
              rfl
            rw [hadd, hlist, honward, hruns, List.map_append, List.map_map, List.append_assoc]
            rfl
          · rw [if_neg hc]
            have hnone : runs set (c :: rest) = [[]] := by simp [runs, someRuns, hc]
            rw [hnone]
            exact hhere

theorem atLeastOneRound_chars (p : Place) :
    (atLeastOneRound (chars set).outcomes true {} p).toList =
        (someRuns set p.rest).map p.advance ∧
      (atLeastOneRound (chars set).outcomes true {} p).seen.testBit p.index = false := by
  rw [atLeastOneRound, outcomes_chars_singleton]
  cases hrest : p.rest with
  | nil => exact ⟨rfl, Nat.zero_testBit _⟩
  | cons c rest =>
      dsimp only
      by_cases hc : set.contains c = true
      · have hindex : (p.advance [c]).index = p.index + 1 := Place.index_advance p [c]
        have honward : (p.advance [c]).rest = rest := by rw [Place.rest_advance, hrest]; rfl
        obtain ⟨hlist, hseen⟩ := furtherRounds_chars set _ {} (p.advance [c]) (Nat.le_refl _)
          fun i _ => Nat.zero_testBit i
        have hne : ((p.advance [c]).index == p.index) = false := by simp
        rw [if_pos hc, List.foldl_cons, List.foldl_nil, hne, if_neg Bool.false_ne_true]
        refine ⟨?_, by rw [hseen _ (by omega)]; exact Nat.zero_testBit _⟩
        rw [hlist, honward, someRuns, if_pos hc, List.map_map]
        rfl
      · rw [if_neg hc, someRuns, if_neg hc]
        exact ⟨rfl, Nat.zero_testBit _⟩

/-- A greedy run of one or more characters. -/
theorem outcomes_many_one (p : Place) :
    (many 1 none true (chars set)).outcomes [p] = (someRuns set p.rest).map p.advance :=
  (atLeastOneRound_chars set p).1

/-- A greedy run of any number of characters. -/
theorem outcomes_many_zero (p : Place) :
    (many 0 none true (chars set)).outcomes [p] = (runs set p.rest).map p.advance := by
  obtain ⟨hlist, hseen⟩ := atLeastOneRound_chars set p
  have hadd : ((atLeastOneRound (chars set).outcomes true {} p).add p).toList =
      (someRuns set p.rest).map p.advance ++ [p] := by
    rw [(Found.add_of_not_has hseen).1, hlist]
  rw [runs, List.map_append]
  exact hadd

end Rounds

end Regex

end RequestRouting
