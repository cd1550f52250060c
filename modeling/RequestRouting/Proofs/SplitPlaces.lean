import RequestRouting.Proofs.Splits

/-!
# Where the ways to split a text lead

The expression of a template tries the ways to split a text in the order of `splitsOf`: the places
that it gets to are those behind these ways (`prefers_run`). What its groups have taken on the way
are the pieces of the elements that capture (`captured_enclosed`).
-/

namespace RequestRouting.Pattern.Template

open Regex (Place Capture Piece Reading Prefers notSlash notLineFeed)

/-! ## The places behind them -/

/-- How many groups an element has. -/
def Element.groupCount (element : Element) : Nat := if element.captures then 1 else 0

/-- Where an element gets to from a place with the given piece. If it captures, that is its group
with the given number. -/
def Element.reach (number : Nat) (element : Element) (p : Place) (piece : List Char) : Place :=
  if element.captures then Place.capture number p (p.advance piece) else p.advance piece

/-- Where elements get to from a place with the given pieces, behind the given number of groups. -/
def reachAll (groups : Nat) : List Element → Place → List (List Char) → Place
  | element :: elements, p, piece :: pieces =>
      reachAll (groups + element.groupCount) elements (element.reach (groups + 1) p piece) pieces
  | _, p, _ => p

/-- What is before an element, and how many groups, does not change the pieces it is read into. -/
def Element.pieces (groups : Nat) (element : Element) : List Piece :=
  (({ groups } : Reading).after element).pieces

theorem Element.index_reach (number : Nat) (element : Element) (p : Place) (piece : List Char) :
    (element.reach number p piece).index = p.index + piece.length := by
  unfold reach
  split <;> exact p.index_advance piece

theorem Element.rest_reach (number : Nat) (element : Element) (p : Place) (piece : List Char) :
    (element.reach number p piece).rest = p.rest.drop piece.length := by
  unfold reach
  split <;> exact p.rest_advance piece

theorem Element.on_reach {text : List Char} {p : Place} (hp : p.On text) (number : Nat)
    {element : Element} {piece : List Char} (hpiece : piece ∈ element.choices p.rest) :
    (element.reach number p piece).On text := by
  have hadvance := hp.advance (mem_choices.mp hpiece).2
  unfold reach
  split
  · exact ⟨hadvance.rest, hadvance.inside⟩
  · exact hadvance

theorem index_reachAll {groups : Nat} {elements : List Element} {p : Place}
    {pieces : List (List Char)} (htakes : List.Forall₂ Element.Takes elements pieces) :
    (reachAll groups elements p pieces).index = p.index + pieces.flatten.length := by
  induction htakes generalizing groups p with
  | nil => rfl
  | cons _ _ ih =>
      rw [reachAll, ih, Element.index_reach, List.flatten_cons, List.length_append, Nat.add_assoc]

theorem pieces_after (state : Reading) (element : Element) :
    (state.after element).pieces = element.pieces state.groups ++ state.pieces ∧
      (state.after element).groups = state.groups + element.groupCount := by
  cases element with
  | literal text =>
      refine ⟨?_, rfl⟩
      simp [Element.pieces, Reading.after, Reading.pushText]
  | segment | anything | parameter _ _ => exact ⟨rfl, rfl⟩

theorem run_text_eq (text : List Char) (places : List Place) :
    Regex.run (text.map fun c => (⟨.chars (.single c), 0, false⟩ : Piece)).reverse places =
      places.flatMap fun p => ((Element.literal text).choices p.rest).map p.advance := by
  induction text generalizing places with
  | nil =>
      have hnil (p : Place) : ((Element.literal []).choices p.rest).map p.advance = [p] := rfl
      simp only [hnil, List.flatMap_singleton']
      rfl
  | cons c text ih =>
      rw [List.map_cons, List.reverse_cons, Regex.run_append, ih]
      change ((places.filterMap (Place.take? (.single c))).flatMap _) = _
      rw [List.filterMap_eq_flatMap_toList, List.flatMap_assoc]
      congr 1
      funext p
      cases hrest : p.rest with
      | nil => simp [Place.take?, hrest, Element.choices]
      | cons d rest =>
          by_cases heq : c = d
          · subst heq
            by_cases hpre : text <+: rest <;>
              simp [Place.take?, hrest, Element.choices, hpre, Place.advance]
          · simp [Place.take?, hrest, Element.choices, heq]

/-- What a capturing element does with its pieces. -/
theorem outcomes_group {number : Nat} (name : Option String) {body : Regex}
    {choices : List Char → List (List Char)}
    (hbody : ∀ p : Place, body.outcomes [p] = (choices p.rest).map p.advance)
    (places : List Place) :
    Prefers ((Regex.group number name body).outcomes places)
      (places.flatMap fun p => (choices p.rest).map fun piece =>
        Place.capture number p (p.advance piece)) := by
  have hgroup : (Regex.group number name body).outcomes places =
      Regex.distinct (places.flatMap fun p => (choices p.rest).map fun piece =>
        Place.capture number p (p.advance piece)) := by
    rw [Regex.outcomes]
    simp only [hbody, List.map_map]
    rfl
  rw [hgroup]
  exact Regex.prefers_distinct _

/-- Matching an element keeps, for each position, the preferred piece. -/
theorem prefers_run_pieces {element : Element} (huntyped : element.isUntyped = true)
    (groups : Nat) (places : List Place) :
    Prefers (Regex.run (element.pieces groups) places)
      (places.flatMap fun p => (element.choices p.rest).map (element.reach (groups + 1) p)) := by
  match element with
  | .literal text =>
      have hpieces : (Element.literal text).pieces groups =
          (text.map fun c => (⟨.chars (.single c), 0, false⟩ : Piece)).reverse := by
        simp [Element.pieces, Reading.after, Reading.pushText]
      rw [hpieces, run_text_eq]
      exact .refl _
  | .segment => exact outcomes_group none (Regex.outcomes_many_zero notSlash) places
  | .anything => exact outcomes_group none (Regex.outcomes_many_zero notLineFeed) places
  | .parameter name none =>
      exact outcomes_group (some (String.ofList name)) (Regex.outcomes_many_one notSlash) places
  | .parameter _ (some _) => cases huntyped

/-- Matching elements in turn keeps, for each position, the first way to split the text up to it. -/
theorem prefers_run {text : List Char} {start : List Place} {elements : List Element}
    (huntyped : elements.all Element.isUntyped = true) (state : Reading) {ways : List Place}
    (hways : ∀ p ∈ ways, p.On text) (hprefers : Prefers (Regex.run state.pieces start) ways) :
    Prefers (Regex.run (elements.foldl Reading.after state).pieces start)
      (ways.flatMap fun p =>
        (splitsOf elements p.rest).map (reachAll state.groups elements p)) := by
  induction elements generalizing state ways with
  | nil =>
      have hnil (p : Place) :
          (splitsOf [] p.rest).map (reachAll state.groups [] p) = [p] := rfl
      simp only [hnil, List.flatMap_singleton']
      exact hprefers
  | cons element elements ih =>
      obtain ⟨helement, huntyped⟩ := Bool.and_eq_true _ _ ▸ (List.all_cons ▸ huntyped)
      obtain ⟨hpieces, hgroups⟩ := pieces_after state element
      have hstep := (prefers_run_pieces helement state.groups (Regex.run state.pieces start)).trans
        (hprefers.flatMap (fun i => (element.choices (text.drop i)).map (i + ·.length)) ?_)
      · rw [← Regex.run_append, ← hpieces] at hstep
        have hlater := ih huntyped (state.after element) ?_ hstep
        · rw [List.flatMap_assoc, hgroups] at hlater
          simp only [List.flatMap_map, Element.rest_reach] at hlater
          simp only [splitsOf, List.map_flatMap, List.map_map]
          exact hlater
        · intro q hq
          obtain ⟨p, hp, hq⟩ := List.mem_flatMap.mp hq
          obtain ⟨piece, hpiece, rfl⟩ := List.mem_map.mp hq
          exact Element.on_reach (hways p hp) _ hpiece
      · intro p hp
        simp only [List.map_map, Function.comp_def, Element.index_reach, (hways p hp).rest]

theorem on_reachAll {text : List Char} {elements : List Element} {p : Place} (hp : p.On text)
    (groups : Nat) {pieces : List (List Char)} (hpieces : pieces ∈ splitsOf elements p.rest) :
    (reachAll groups elements p pieces).On text := by
  induction elements generalizing p groups pieces with
  | nil =>
      cases List.mem_singleton.mp hpieces
      exact hp
  | cons element elements ih =>
      obtain ⟨piece, hpiece, hpieces⟩ := List.mem_flatMap.mp hpieces
      obtain ⟨later, hlater, rfl⟩ := List.mem_map.mp hpieces
      rw [← element.rest_reach (groups + 1)] at hlater
      exact ih (Element.on_reach hp _ hpiece) _ hlater

theorem head?_atEnd {text : List Char} {places : List Place} (hon : ∀ p ∈ places, p.On text)
    (extent : Extent) :
    (Regex.atEnd extent places).head? = places.find? fun p => covers extent text p.index := by
  cases extent with
  | leading => cases places <;> rfl
  | whole =>
      change (places.filter fun p => p.rest.head?.isNone).head? = _
      rw [List.head?_filter]
      refine List.find?_congr fun p hp => ?_
      obtain ⟨hrest, hinside⟩ := hon p hp
      rw [hrest, Bool.eq_iff_iff, Option.isNone_iff_eq_none, List.head?_eq_none_iff,
        List.drop_eq_nil_iff]
      simp only [covers, reduceCtorEq, beq_iff_eq, Bool.or_eq_true, false_or]
      omega

/-- What an untyped template matches first is the place behind the first way to split the text that
covers enough of it. -/
theorem head?_atEnd_run {elements : List Element}
    (huntyped : elements.all Element.isUntyped = true) (extent : Extent) (text : List Char) :
    (Regex.atEnd extent
        (Regex.run (Regex.readingOf elements).pieces [Place.atStart text])).head? =
      ((splitsOf elements text).find? fun pieces =>
        covers extent text pieces.flatten.length).map
          (reachAll 0 elements (Place.atStart text)) := by
  have hstart := Place.on_atStart text
  have hprefers := prefers_run huntyped Reading.opened (List.forall_mem_singleton.mpr hstart)
    (.refl _)
  rw [List.flatMap_singleton] at hprefers
  have hon (q : Place) (hq : q ∈ Regex.run (Regex.readingOf elements).pieces
      [Place.atStart text]) : q.On text := by
    obtain ⟨pieces, hpieces, rfl⟩ := List.mem_map.mp (hprefers.subset hq)
    exact on_reachAll hstart _ hpieces
  rw [head?_atEnd hon]
  refine (hprefers.find (covers extent text)).trans ?_
  rw [List.find?_map]
  refine congrArg (Option.map _) (List.find?_congr fun pieces hpieces => ?_)
  have hindex : (reachAll 0 elements (Place.atStart text) pieces).index =
      (Place.atStart text).index + pieces.flatten.length :=
    index_reachAll (mem_splitsOf.mp hpieces).1
  exact congrArg (covers extent text) (hindex.trans (Nat.zero_add _))

/-! ## What the groups have taken -/

section Captures

variable {elements : List Element} {pieces : List (List Char)}

theorem captured_cons (element : Element) (piece : List Char) :
    captured (element :: elements) (piece :: pieces) =
      if element.captures then (element, piece) :: captured elements pieces
      else captured elements pieces := by
  rw [captured, List.zip_cons_cons, List.filter_cons]
  rfl

/-- The part of a text that a group has taken. -/
def slice (text : List Char) (capture : Capture) : List Char :=
  (text.drop capture.start).take (capture.stop - capture.start)

/-- Elements leave alone what the groups before them have taken, and each of their own groups
holds the piece of its element. -/
theorem find?_captures_reachAll {text : List Char} {p : Place} (hp : p.On text) (groups : Nat)
    (hpieces : pieces ∈ splitsOf elements p.rest) :
    (∀ number ≤ groups,
      (reachAll groups elements p pieces).captures.find? (·.number == number) =
        p.captures.find? (·.number == number)) ∧
    ∀ i entry, (captured elements pieces)[i]? = some entry →
      ((reachAll groups elements p pieces).captures.find? (·.number == groups + i + 1)).map
        (slice text) = some entry.2 := by
  induction elements generalizing p groups pieces with
  | nil =>
      cases List.mem_singleton.mp hpieces
      exact ⟨fun _ _ => rfl, nofun⟩
  | cons element elements ih =>
      obtain ⟨piece, hpiece, hpieces⟩ := List.mem_flatMap.mp hpieces
      obtain ⟨later, hlater, rfl⟩ := List.mem_map.mp hpieces
      rw [← element.rest_reach (groups + 1)] at hlater
      obtain ⟨hkept, hown⟩ := ih (Element.on_reach hp _ hpiece) (groups + element.groupCount) hlater
      rw [reachAll, captured_cons]
      cases hcaptures : element.captures with
      | false =>
          simp only [Element.groupCount, Element.reach, hcaptures, Bool.false_eq_true, if_false,
            Nat.add_zero, Place.captures_advance] at hkept hown ⊢
          exact ⟨hkept, hown⟩
      | true =>
          simp only [Element.groupCount, Element.reach, hcaptures, if_true] at hkept hown ⊢
          have htop : (Place.capture (groups + 1) p (p.advance piece)).captures =
              ⟨groups + 1, p.index, p.index + piece.length⟩ :: p.captures := by
            simp [Place.capture]
          rw [htop] at hkept
          refine ⟨fun number hnumber => ?_, fun i entry hentry => ?_⟩
          · have hother : (groups + 1 == number) = false := beq_false_of_ne (by omega)
            rw [hkept number (by omega), List.find?_cons, hother]
          · cases i with
            | zero =>
                obtain rfl : (element, piece) = entry := Option.some.inj hentry
                obtain ⟨rest, hrest⟩ := (Element.mem_choices.mp hpiece).2
                rw [hkept _ (by omega), List.find?_cons, Nat.add_zero, beq_self_eq_true]
                simp only [Option.map_some, slice, ← hp.rest, ← hrest, Nat.add_sub_cancel_left,
                  List.take_left]
            | succ i =>
                have hnumber : groups + (i + 1) + 1 = groups + 1 + i + 1 := by omega
                rw [hnumber]
                exact hown i entry hentry

/-- What an element captures is a group of its own, with the name of the element. -/
theorem Element.groups_pieces (groups : Nat) (element : Element) :
    (element.pieces groups).reverse.flatMap (·.node.groups) =
      if element.captures then [(groups + 1, element.name?.map String.ofList)] else [] := by
  cases element with
  | literal text =>
      simp [Element.pieces, Reading.after, Reading.pushText, Regex.groups, List.flatMap_map,
        captures]
  | segment | anything | parameter _ _ => rfl

/-- The groups of elements are numbered in turn. -/
theorem groups_foldl_after (hlength : elements.length = pieces.length) (state : Reading) :
    (elements.foldl Reading.after state).pieces.reverse.flatMap (·.node.groups) =
      state.pieces.reverse.flatMap (·.node.groups) ++
        ((captured elements pieces).zipIdx state.groups).map fun entry =>
          (entry.2 + 1, entry.1.1.name?.map String.ofList) := by
  induction elements generalizing state pieces with
  | nil => simp [captured]
  | cons element elements ih =>
      obtain ⟨piece, pieces, rfl⟩ := List.exists_cons_of_length_eq_add_one hlength.symm
      obtain ⟨hpieces, hgroups⟩ := pieces_after state element
      rw [List.foldl_cons, ih (Nat.succ.inj hlength), hpieces, hgroups, captured_cons,
        List.reverse_append, List.flatMap_append, Element.groups_pieces, Element.groupCount]
      split <;> simp

theorem highest_zipIdx {α : Type} (entries : List α) (name : α → Option String) (start : Nat) :
    ((entries.zipIdx start).map fun entry => (entry.2 + 1, name entry.1)).foldl
      (fun count entry => max count entry.1) start = start + entries.length := by
  induction entries generalizing start with
  | nil => rfl
  | cons entry entries ih =>
      have hmax : max start (start + 1) = start + 1 := Nat.max_eq_right (Nat.le_succ _)
      rw [List.zipIdx_cons, List.map_cons, List.foldl_cons, hmax, ih, List.length_cons]
      omega

/-- The expression of an untyped template captures the pieces of the first way to split a text that
covers enough of it, and captures nothing if there is none. -/
theorem captured_enclosed (huntyped : elements.all Element.isUntyped = true) (extent : Extent)
    (text : List Char) :
    (Regex.enclosed (Regex.sequence (Regex.readingOf elements).pieces) extent).node.captured text =
      ((splitsOf elements text).find? fun pieces => covers extent text pieces.flatten.length).map
        fun pieces => (captured elements pieces).map fun entry => some entry.2 := by
  rw [Regex.captured, Regex.search_enclosed, Regex.outcomes_sequence (Regex.directive_readingOf _),
    head?_atEnd_run huntyped]
  cases hfind : (splitsOf elements text).find? fun pieces =>
    covers extent text pieces.flatten.length with
  | none => rfl
  | some pieces =>
      have hpieces := List.mem_of_find?_eq_some hfind
      have hlength := (mem_splitsOf.mp hpieces).1.length_eq
      have hcount : (Regex.enclosed (Regex.sequence (Regex.readingOf elements).pieces)
          extent).node.groupCount = (captured elements pieces).length := by
        rw [Regex.groupCount, Regex.groups_enclosed,
          Regex.groups_sequence (Regex.directive_readingOf _), Regex.readingOf,
          groups_foldl_after hlength]
        exact (highest_zipIdx (captured elements pieces)
          (fun entry => entry.1.name?.map String.ofList) 0).trans (Nat.zero_add _)
      obtain ⟨_, hown⟩ := find?_captures_reachAll (Place.on_atStart text) 0 hpieces
      simp only [Option.map_some, hcount, Option.some.injEq]
      refine List.ext_getElem (by simp) fun i hi hi' => ?_
      rw [List.length_map] at hi'
      have hentry := hown i _ (List.getElem?_eq_getElem hi')
      rw [Nat.zero_add] at hentry
      rw [List.getElem_map, List.getElem_map, List.getElem_range]
      exact hentry

/-- Groups that have taken the pieces give their values. -/
theorem values_of_captured (entries : List (Element × List Char)) :
    (List.range (entries.map fun entry => some entry.2).length).map (fun index =>
          (toString index, Expression.groupValue (entries.map fun entry => some entry.2) index)) ++
        (entries.zipIdx.map fun entry =>
          (entry.2 + 1, entry.1.1.name?.map String.ofList)).filterMap (fun group =>
            group.2.map fun name =>
              (name, Expression.groupValue (entries.map fun entry => some entry.2)
                (group.1 - 1))) =
      entries.zipIdx.map (fun entry => (toString entry.2, String.ofList entry.1.2)) ++
        entries.filterMap fun entry =>
          entry.1.name?.map fun name => (String.ofList name, String.ofList entry.2) := by
  have hvalue {i : Nat} {entry : Element × List Char} (hentry : entries[i]? = some entry) :
      Expression.groupValue (entries.map fun entry => some entry.2) i = String.ofList entry.2 := by
    simp [Expression.groupValue, hentry]
  congr 1
  · refine List.ext_getElem (by simp) fun i hi hi' => ?_
    have hlength : i < entries.length := by simpa using hi
    simp [hvalue (List.getElem?_eq_getElem hlength)]
  · conv_rhs => rw [← List.zipIdx_map_fst 0 entries]
    rw [List.filterMap_map, List.filterMap_map]
    refine List.filterMap_congr fun entry hmem => ?_
    have hentry := List.mem_zipIdx_iff_getElem?.mp hmem
    simp [hvalue hentry, Function.comp_def]

end Captures

end RequestRouting.Pattern.Template
