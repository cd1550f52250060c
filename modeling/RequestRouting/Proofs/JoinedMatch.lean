import RequestRouting.Proofs.Matching

/-!
# What the join of two patterns matches

The join of two patterns has the elements of both, one after the other, but for a text or a star
at the joint that is read as one with what it meets (`Pattern.Parsed.elements_of_join`). If the
patterns are untyped, a path that the join matches is one that the first pattern matches when it
is for leading parts of paths (`Pattern.Parsed.accepts_of_join`): the pieces of the first one are
matched on the way, or a run in their place.

The groups of the first pattern are the first groups of the join, with the same numbers and
names. So the join extracts values under all the names under which the first pattern does
(`Pattern.keys_subset`), and what was extracted for those before is replaced.
-/

namespace RequestRouting

open Pattern.Template

namespace Regex

/-! ## The pieces of joined texts -/

theorem foldl_after_consLiteral (c : Char) (elements : List Element) (state : Reading) :
    (consLiteral c elements).foldl Reading.after state =
      elements.foldl Reading.after (state.pushText [c]) := by
  unfold consLiteral
  split
  · rename_i text elements
    have htext : state.pushText (c :: text) = (state.pushText [c]).pushText text := by
      simp [Reading.pushText]
    rw [List.foldl_cons, List.foldl_cons, Reading.after, htext]
    rfl
  · rfl

theorem foldl_after_text (text : List Char) (state : Reading) :
    (text.foldr consLiteral []).foldl Reading.after state = state.pushText text := by
  induction text generalizing state with
  | nil => rfl
  | cons c text ih =>
      rw [List.foldr_cons, foldl_after_consLiteral, ih]
      simp [Reading.pushText]

theorem foldl_after_meet {earlier later : List Element} (hapart : ¬Touch earlier later)
    (state : Reading) :
    (meet earlier later).foldl Reading.after state =
      later.foldl Reading.after (earlier.foldl Reading.after state) := by
  fun_induction meet earlier later generalizing state with
  | case1 => rfl
  | case2 element later =>
      unfold Element.meet
      split
      · rename_i text more later
        have htext : state.pushText (text ++ more) = (state.pushText text).pushText more := by
          simp [Reading.pushText]
        rw [List.foldl_cons, Reading.after, htext]
        rfl
      · exact absurd ⟨rfl, rfl⟩ hapart
      · rfl
  | case3 element next earlier later ih =>
      have hlater : ¬Touch (next :: earlier) later := fun htouch =>
        hapart (by simpa [Touch] using htouch)
      exact ih hlater _

/-- What the first text of two is read into is what it is read into by itself, or ends with the
other star if two stars come together. -/
theorem exists_pieces_meet (earlier later : List Element) :
    (∃ added, (readingOf (meet earlier later)).pieces = added ++ (readingOf earlier).pieces) ∨
      ∃ added number pieces,
        (readingOf earlier).pieces =
          ⟨group number none (many 0 none true (chars notSlash)), 3, false⟩ :: pieces ∧
        (readingOf (meet earlier later)).pieces =
          added ++
            ⟨group number none (many 0 none true (chars notLineFeed)), 2, false⟩ :: pieces := by
  by_cases htouch : Touch earlier later
  · obtain ⟨front, back, rfl, _, hmeet⟩ := exists_of_touch htouch
    obtain ⟨added, hadded, _⟩ := pieces_foldl_after ((readingOf front).after .anything) back
    refine .inr ⟨added, (readingOf front).groups + 1, (readingOf front).pieces, ?_, ?_⟩
    · rw [readingOf, List.foldl_append]
      rfl
    · rw [hmeet, readingOf, List.foldl_append, List.foldl_cons]
      exact hadded
  · obtain ⟨added, hadded, _⟩ := pieces_foldl_after (readingOf earlier) later
    exact .inl ⟨added, by rw [readingOf, foldl_after_meet htouch]; exact hadded⟩

/-- If two texts match one after the other, the first one does. -/
theorem run_ne_nil_of_meet {earlier later : List Element} {places : List Place}
    (hrun : run (readingOf (meet earlier later)).pieces places ≠ []) :
    run (readingOf earlier).pieces places ≠ [] := by
  rcases exists_pieces_meet earlier later with
    ⟨added, hadded⟩ | ⟨added, number, pieces, hown, hadded⟩
  · intro hnone
    rw [hadded, run_append, hnone, run_nil] at hrun
    exact hrun rfl
  · have hbefore : run pieces places ≠ [] := by
      intro hnone
      rw [hadded, run_append, run_cons, hnone, outcomes_nil, run_nil] at hrun
      exact hrun rfl
    rw [hown]
    exact outcomes_run_ne_nil number none notSlash hbefore

/-- The groups of the first of two texts come first. -/
theorem exists_groups_meet (earlier later : List Element) :
    ∃ more, (sequence (readingOf (meet earlier later)).pieces).node.groups =
      (sequence (readingOf earlier).pieces).node.groups ++ more := by
  rw [groups_sequence (directive_readingOf _), groups_sequence (directive_readingOf _)]
  rcases exists_pieces_meet earlier later with
    ⟨added, hadded⟩ | ⟨added, number, pieces, hown, hadded⟩
  · rw [hadded, List.reverse_append, List.flatMap_append]
    exact ⟨_, rfl⟩
  · rw [hown, hadded]
    refine ⟨added.reverse.flatMap (·.node.groups), ?_⟩
    simp [groups]

/-- A text that stands for itself takes what is the same. -/
theorem run_text (text : List Char) (p : Place) :
    (∃ q, run (text.map fun c => (⟨chars (.single c), 0, false⟩ : Piece)).reverse [p] = [q] ∧
        p.rest = text ++ q.rest) ∨
      (run (text.map fun c => (⟨chars (.single c), 0, false⟩ : Piece)).reverse [p] = [] ∧
        ¬text <+: p.rest) := by
  induction text generalizing p with
  | nil => exact .inl ⟨p, rfl, rfl⟩
  | cons c text ih =>
      rw [List.map_cons, List.reverse_cons, run_append]
      by_cases hrest : ∃ rest, p.rest = c :: rest
      · obtain ⟨rest, hrest⟩ := hrest
        have htake : run [⟨chars (.single c), 0, false⟩] [p] =
            [⟨some c, rest, p.index + 1, p.captures⟩] := by
          simp [run, outcomes, Place.take?, hrest]
        rw [htake, hrest]
        rcases ih ⟨some c, rest, p.index + 1, p.captures⟩ with ⟨q, hq, hsplit⟩ | ⟨hnone, hno⟩
        · exact .inl ⟨q, hq, congrArg (c :: ·) hsplit⟩
        · exact .inr ⟨hnone, fun hpre => hno (List.cons_prefix_cons.mp hpre).2⟩
      · have htake : run [⟨chars (.single c), 0, false⟩] [p] = [] := by
          cases hp : p.rest with
          | nil => simp [run, outcomes, Place.take?, hp]
          | cons d rest =>
              have hne : c ≠ d := fun heq => hrest ⟨rest, by rw [hp, heq]⟩
              simp [run, outcomes, Place.take?, hp, hne]
        rw [htake, run_nil]
        refine .inr ⟨rfl, ?_⟩
        rintro ⟨rest, hpre⟩
        exact hrest ⟨_, hpre.symm⟩

end Regex

namespace Pattern

open Regex (readingOf run atEnd)

variable {p q joined : Pattern}

theorem meet_text (text : List Char) (later : List Element) :
    meet (text.foldr consLiteral []) later = text.foldr consLiteral later := by
  induction text with
  | nil => rfl
  | cons c text ih => rw [List.foldr_cons, List.foldr_cons, meet_consLiteral, ih]

theorem Parsed.elements_of_plain (hp : p.Parsed) (hplain : readsAsTemplate p.text.toList = false) :
    p.elements = p.text.toList.foldr consLiteral [] := by
  obtain ⟨text, extent, hparse⟩ := hp
  rcases parse_eq_ok_iff.mp hparse with ⟨htemplate, t, _, rfl⟩ | ⟨_, l, _, rfl⟩
  · rw [text_of_parse hparse, htemplate] at hplain
    cases hplain
  · rfl

/-- A join has the elements of both texts. -/
theorem Parsed.elements_of_join (hp : p.Parsed) (hq : q.Parsed) (hjoin : join p q = .ok joined) :
    joined.elements = meet p.elements q.elements := by
  rw [hp.join_eq hq] at hjoin
  have hlist : (p.text ++ q.text).toList = p.text.toList ++ q.text.toList := String.toList_append
  rcases parse_eq_ok_iff.mp hjoin with ⟨_, t, ht, rfl⟩ | ⟨hplain, l, hl, rfl⟩
  · obtain ⟨_, elements, hread, _, _, rfl⟩ := Template.ofText_eq_ok_iff.mp ht
    rw [hlist] at hread
    have hreads := reads_of_readElements hread
    obtain ⟨later, hlater, rfl⟩ := (hp.reads hreads).of_append hreads
    have hown : Reads [] q.text.toList q.elements :=
      hq.reads ((List.append_nil q.text.toList).symm ▸ hlater)
    have hsame : later = q.elements :=
      Except.ok.inj (hlater.readElements_eq.symm.trans hown.readElements_eq)
    rw [hsame]
    rfl
  · obtain ⟨_, rfl⟩ := Literal.ofText_eq_ok_iff.mp hl
    rw [hlist, readsAsTemplate, List.any_append, Bool.or_eq_false_iff] at hplain
    rw [hp.elements_of_plain hplain.1, hq.elements_of_plain hplain.2, meet_text,
      ← List.foldr_append, ← hlist]
    rfl

theorem Parsed.isUntyped_of_join (hp : p.Parsed) (hq : q.Parsed) (hjoin : join p q = .ok joined)
    (huntyped : p.isUntyped = true) (hother : q.isUntyped = true) : joined.isUntyped = true := by
  rw [isUntyped, hp.elements_of_join hq hjoin, all_isUntyped_meet, Bool.and_eq_true]
  exact ⟨huntyped, hother⟩

/-- The expression of an untyped template is the sequence of its elements between the anchors. -/
theorem Template.regex_of_ofText {text : String} {extent : Extent} {t : Template}
    (ht : ofText text extent = .ok t) (huntyped : t.elements.all Element.isUntyped = true) :
    t.expression.regex =
      (Regex.enclosed (Regex.sequence (readingOf t.elements).pieces) t.expression.extent).node := by
  obtain ⟨_, elements, hread, regex, hregex, rfl⟩ := Template.ofText_eq_ok_iff.mp ht
  obtain ⟨hnodup, hnames⟩ := (reads_of_readElements hread).names
  have huntyped : elements.all Element.isUntyped = true := huntyped
  rw [Regex.readChars?_anchored huntyped hnodup fun name hmem => (hnames name hmem).1] at hregex
  exact (Regex.Piece.admitted?_eq_some_iff.mp hregex).2.symm

theorem regex_of_untyped {t : Template} (hp : (template t).Parsed)
    (huntyped : (template t).isUntyped = true) :
    t.expression.regex =
      (Regex.enclosed (Regex.sequence (readingOf t.elements).pieces) t.expression.extent).node := by
  obtain ⟨text, extent, hparse⟩ := hp
  rcases parse_eq_ok_iff.mp hparse with ⟨_, t, ht, heq⟩ | ⟨_, _, _, heq⟩
  · cases heq
    exact Template.regex_of_ofText ht huntyped
  · cases heq

/-- What is read from text is no expression. -/
theorem Parsed.ne_expression {e : Expression} : ¬(expression e).Parsed := by
  rintro ⟨text, extent, hparse⟩
  rcases parse_eq_ok_iff.mp hparse with ⟨_, _, _, heq⟩ | ⟨_, _, _, heq⟩ <;> cases heq

theorem Literal.accepts_iff (l : Literal) (path : String) :
    l.accepts path = true ↔
      atEnd l.extent (run (readingOf (l.text.toList.foldr consLiteral [])).pieces
        [Regex.Place.atStart path.toList]) ≠ [] := by
  have hpieces : (readingOf (l.text.toList.foldr consLiteral [])).pieces =
      (l.text.toList.map fun c => (⟨.chars (.single c), 0, false⟩ : Regex.Piece)).reverse := by
    rw [readingOf, Regex.foldl_after_text]
    simp [Regex.Reading.pushText, Regex.Reading.opened]
  rw [hpieces]
  obtain ⟨text, extent⟩ := l
  have hrun := Regex.run_text text.toList (Regex.Place.atStart path.toList)
  change (∃ q, _ ∧ path.toList = _) ∨ (_ ∧ ¬text.toList <+: path.toList) at hrun
  dsimp only
  cases extent with
  | leading =>
      rcases hrun with ⟨q, hq, hsplit⟩ | ⟨hnone, hno⟩
      · rw [hq]
        simp [accepts, atEnd, hsplit]
      · rw [hnone]
        simp [accepts, atEnd, hno]
  | whole =>
      have hend (q : Regex.Place) : atEnd .whole [q] ≠ [] ↔ q.rest = [] := by
        obtain ⟨before, rest, index, captures⟩ := q
        cases rest <;> simp [atEnd, Regex.outcomes, Regex.Look.holds]
      simp only [accepts, beq_iff_eq, ← String.toList_inj]
      rcases hrun with ⟨q, hq, hsplit⟩ | ⟨hnone, hno⟩
      · rw [hq, hend, hsplit, List.append_right_eq_self]
      · rw [hnone]
        exact iff_of_false (fun heq => hno ⟨[], by rw [List.append_nil, heq]⟩) fun hne => hne rfl

/-- An untyped pattern matches what its elements take one after the other. -/
theorem Parsed.accepts_iff (hp : p.Parsed) (huntyped : p.isUntyped = true) (path : String) :
    p.accepts path = true ↔
      atEnd p.extent (run (readingOf p.elements).pieces
        [Regex.Place.atStart path.toList]) ≠ [] := by
  cases p with
  | template t =>
      change t.expression.regex.isMatch path.toList = true ↔ _
      rw [regex_of_untyped hp huntyped, Regex.isMatch_enclosed,
        Regex.outcomes_sequence (Regex.directive_readingOf _)]
      simp [extent, elements]
  | literal l => exact l.accepts_iff path
  | expression e => exact absurd hp Parsed.ne_expression

/-- A path that a join matches is one that its first pattern matches, if that is for leading
parts of paths. -/
theorem Parsed.accepts_of_join (hp : p.Parsed) (hq : q.Parsed) (huntyped : p.isUntyped = true)
    (hother : q.isUntyped = true) (hleading : p.extent = .leading)
    (hjoin : join p q = .ok joined) {path : String} (haccepts : joined.accepts path = true) :
    p.accepts path = true := by
  obtain ⟨hjoined, _, _⟩ := hp.of_join hq hjoin
  rw [hjoined.accepts_iff (hp.isUntyped_of_join hq hjoin huntyped hother),
    hp.elements_of_join hq hjoin] at haccepts
  have hrun : run (readingOf (meet p.elements q.elements)).pieces
      [Regex.Place.atStart path.toList] ≠ [] := by
    intro hnone
    rw [hnone, Regex.atEnd_nil] at haccepts
    exact haccepts rfl
  rw [hp.accepts_iff huntyped, hleading]
  exact Regex.run_ne_nil_of_meet hrun

/-! ## Parameters -/

/-- The capturing groups of a pattern with their names, which literals lack. -/
def groups (p : Pattern) : List (Nat × Option String) :=
  (p.expression?.map (·.regex.groups)).getD []

/-- The highest number of a group. -/
def highest (groups : List (Nat × Option String)) : Nat :=
  groups.foldl (fun count entry => max count entry.1) 0

/-- The names under which values are extracted: the positions of the groups, then the declared
names. -/
def keys (p : Pattern) : List String :=
  (List.range (highest p.groups)).map toString ++ p.groups.filterMap (·.2)

/-- A pattern extracts values from the paths that it matches, under its names. -/
theorem exists_extract_of_accepts {path : String} (haccepts : p.accepts path = true) :
    ∃ parameters, p.extract path = .ok parameters ∧ parameters.map Prod.fst = p.keys := by
  have hexpression (e : Expression) (haccepts : e.accepts path = true) :
      ∃ parameters, e.extract path = .ok parameters ∧
        parameters.map Prod.fst = (expression e).keys := by
    obtain ⟨found, hfound⟩ := Option.isSome_iff_exists.mp haccepts
    refine ⟨_, by rw [Expression.extract, Regex.captured, hfound]; rfl, ?_⟩
    simp [keys, groups, expression?, highest, Regex.groupCount, Function.comp_def,
      List.map_filterMap]
  cases p with
  | literal l => exact ⟨[], if_pos haccepts, rfl⟩
  | template t => exact hexpression t.expression haccepts
  | expression e => exact hexpression e haccepts

theorem hasCaptures_eq (p : Pattern) : p.hasCaptures = decide (0 < highest p.groups) := by
  cases p <;> rfl

theorem highest_le_append (groups more : List (Nat × Option String)) :
    highest groups ≤ highest (groups ++ more) := by
  have hle (least : Nat) :
      least ≤ more.foldl (fun count entry => max count entry.1) least := by
    induction more generalizing least with
    | nil => exact Nat.le_refl _
    | cons entry more ih => exact Nat.le_trans (Nat.le_max_left ..) (ih _)
  rw [highest, highest, List.foldl_append]
  exact hle _

theorem le_highest {groups : List (Nat × Option String)} {number : Nat} {name : Option String}
    (hmem : (number, name) ∈ groups) : number ≤ highest groups := by
  obtain ⟨earlier, later, rfl⟩ := List.append_of_mem hmem
  have hhere : number ≤ highest (earlier ++ [(number, name)]) := by
    rw [highest, List.foldl_append]
    exact Nat.le_max_right _ _
  have hle := highest_le_append (earlier ++ [(number, name)]) later
  rw [List.append_assoc, List.singleton_append] at hle
  exact Nat.le_trans hhere hle

/-- The groups of an untyped pattern are those of its elements. -/
theorem Parsed.groups_eq (hp : p.Parsed) (huntyped : p.isUntyped = true) :
    p.groups = (Regex.sequence (readingOf p.elements).pieces).node.groups := by
  cases p with
  | template t =>
      change t.expression.regex.groups = _
      rw [regex_of_untyped hp huntyped, Regex.groups_enclosed]
      rfl
  | literal l =>
      rw [Regex.groups_sequence (Regex.directive_readingOf _), elements, readingOf,
        Regex.foldl_after_text]
      simp [groups, expression?, Regex.Reading.pushText, Regex.Reading.opened, Regex.groups,
        List.flatMap_map]
  | expression e => exact absurd hp Parsed.ne_expression

/-- The groups of the first pattern come first in a join. -/
theorem Parsed.exists_groups_of_join (hp : p.Parsed) (hq : q.Parsed)
    (huntyped : p.isUntyped = true) (hother : q.isUntyped = true)
    (hjoin : join p q = .ok joined) : ∃ more, joined.groups = p.groups ++ more := by
  obtain ⟨hjoined, _, _⟩ := hp.of_join hq hjoin
  rw [hjoined.groups_eq (hp.isUntyped_of_join hq hjoin huntyped hother),
    hp.elements_of_join hq hjoin, hp.groups_eq huntyped]
  exact Regex.exists_groups_meet p.elements q.elements

theorem keys_subset {more : List (Nat × Option String)} (hgroups : q.groups = p.groups ++ more) :
    p.keys ⊆ q.keys := by
  rw [keys, keys, hgroups, List.filterMap_append]
  have hpositions : (List.range (highest p.groups)).map toString ⊆
      (List.range (highest (p.groups ++ more))).map toString :=
    List.map_subset _ (List.range_subset.mpr (highest_le_append _ _))
  exact List.append_subset.mpr
    ⟨fun name hmem => List.mem_append_left _ (hpositions hmem),
      fun name hmem => List.mem_append_right _ (List.mem_append_left _ hmem)⟩

end Pattern

end RequestRouting
