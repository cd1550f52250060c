import RequestRouting.Proofs.GreedySplit
import RequestRouting.Proofs.TextsInTurn

/-!
# The join of two texts takes one part of a path behind the other

A path that two texts match together is one that can be cut so that the first text takes all of
the part in front, and the second one matches the part behind it
(`Pattern.join_accepts_one_behind_other`).

The elements of the two texts split a path if the first ones split a part in front of it and the
others what is left (`splittable_append`). A text at the joint that goes on in the second one does
not matter for this (`splittable_meet`), but two stars do, for they become one element that takes
more than both of them. Where no stars meet, the join is refused only if a closing brace of a
literal comes to stand in a template, or if its expression is too large
(`Pattern.Parsed.exists_join_iff`). It is never refused for its depth, since the elements of
templates without typed placeholders are flat.
-/

namespace RequestRouting.Pattern

open Template
open Regex (readingOf sequence enclosed readChars?)

namespace Template

variable {extent : Extent} {earlier later elements : List Element} {text : List Char}

/-! ## Splitting with joined elements -/

/-- There is a way in which the elements split the text. -/
def Splittable (extent : Extent) (elements : List Element) (text : List Char) : Prop :=
  ∃ pieces, Splits extent elements text pieces

theorem splittable_nil : Splittable extent [] text ↔ (extent = .whole → text = []) := by
  simp only [Splittable, splits_nil, exists_eq_left]

theorem splittable_cons {element : Element} :
    Splittable extent (element :: elements) text ↔
      ∃ piece rest, text = piece ++ rest ∧ element.Takes piece ∧
        Splittable extent elements rest := by
  simp only [Splittable, splits_cons]
  constructor
  · rintro ⟨_, piece, later, rest, rfl, htext, htakes, hlater⟩
    exact ⟨piece, rest, htext, htakes, later, hlater⟩
  · rintro ⟨piece, rest, htext, htakes, later, hlater⟩
    exact ⟨_, piece, later, rest, rfl, htext, htakes, hlater⟩

/-- A star takes what has no slash. -/
theorem splittable_segment : Splittable .whole [.segment] text ↔ '/' ∉ text := by
  simp [splittable_cons, splittable_nil, Element.Takes]

/-- Elements split what those in front split, with what those behind split after it. -/
theorem splittable_append :
    Splittable extent (earlier ++ later) text ↔
      ∃ before after, text = before ++ after ∧ Splittable .whole earlier before ∧
        Splittable extent later after := by
  induction earlier generalizing text with
  | nil => simp [splittable_nil]
  | cons element earlier ih =>
      simp only [List.cons_append, splittable_cons, ih]
      constructor
      · rintro ⟨piece, rest, rfl, htakes, before, after, rfl, hbefore, hafter⟩
        exact ⟨piece ++ before, after, (List.append_assoc ..).symm,
          ⟨piece, before, rfl, htakes, hbefore⟩, hafter⟩
      · rintro ⟨_, after, rfl, ⟨piece, before, rfl, htakes, hbefore⟩, hafter⟩
        exact ⟨piece, before ++ after, List.append_assoc .., htakes, before, after, rfl, hbefore,
          hafter⟩

/-- It does not matter whether a text goes on in another element. -/
theorem splittable_literal_append {first second : List Char} :
    Splittable extent (.literal (first ++ second) :: elements) text ↔
      Splittable extent (.literal first :: .literal second :: elements) text := by
  simp [splittable_cons, Element.Takes]

/-- Where no stars meet, the elements of two joined texts split what they split in turn. -/
theorem splittable_meet (hapart : ¬Touch earlier later) :
    Splittable extent (meet earlier later) text ↔ Splittable extent (earlier ++ later) text := by
  fun_induction meet earlier later generalizing text with
  | case1 => rfl
  | case2 element later =>
      unfold Element.meet
      split
      · exact splittable_literal_append
      · exact absurd ⟨rfl, rfl⟩ hapart
      · rfl
  | case3 element next earlier later ih =>
      have hlater : ¬Touch (next :: earlier) later := fun htouch =>
        hapart (by simpa [Touch] using htouch)
      rw [List.cons_append, splittable_cons, splittable_cons]
      simp only [ih hlater]

/-- An untyped template has a match in a text that its elements can split. -/
theorem atEnd_run_ne_nil_iff (huntyped : elements.all Element.isUntyped = true) :
    Regex.atEnd extent (Regex.run (readingOf elements).pieces [Regex.Place.atStart text]) ≠ [] ↔
      Splittable extent elements text := by
  rw [ne_eq, ← List.head?_eq_none_iff, head?_atEnd_run huntyped, Option.map_eq_none_iff,
    ← ne_eq, Option.ne_none_iff_exists']
  constructor
  · rintro ⟨pieces, hfind⟩
    exact ⟨pieces, (greedy_of_find? hfind).splits⟩
  · rintro ⟨pieces, hsplits⟩
    exact find?_of_splits hsplits

/-! ## What is refused -/

/-- Untyped elements that have been read from a text are accepted unless they are too large. -/
theorem Reads.readChars?_eq_some_iff (hreads : Reads [] text elements)
    (huntyped : elements.all Element.isUntyped = true) (extent : Extent) {regex : Regex} :
    readChars? (Expression.anchored (bodyOf elements) extent) = some regex ↔
      (enclosed (sequence (readingOf elements).pieces) extent).node.weight ≤ Regex.sizeLimit ∧
        (enclosed (sequence (readingOf elements).pieces) extent).node = regex := by
  obtain ⟨hnodup, hnames⟩ := hreads.names
  have hdepth := Regex.depth_enclosed_le
    (Regex.depth_sequence_le_of_flat (Regex.flat_readingOf elements)) extent
  rw [Regex.readChars?_anchored huntyped hnodup fun name hmem => (hnames name hmem).1,
    Regex.Piece.admitted?_eq_some_iff]
  exact and_congr_left fun _ => and_iff_right hdepth

/-- A text that is read has no closing brace by itself. -/
theorem Reads.not_mem_of_plain {taken : List (List Char)} (hreads : Reads taken text elements)
    (hplain : readsAsTemplate text = false) : '\x7d' ∉ text := by
  induction hreads with
  | nil => exact List.not_mem_nil
  | parameter | anything | segment => simp [readsAsTemplate] at hplain
  | @literal taken c rest later _ hclose _ _ ih =>
      simp only [readsAsTemplate, List.any_cons, Bool.or_eq_false_iff] at hplain
      exact List.not_mem_cons_of_ne_of_not_mem (Ne.symm hclose) (ih hplain.2)

/-- What the first of two texts is read into is in what both are read into. -/
theorem length_pieces_meet (earlier later : List Element) :
    (readingOf earlier).pieces.length ≤ (readingOf (meet earlier later)).pieces.length := by
  rcases Regex.exists_pieces_meet earlier later with
    ⟨added, hadded⟩ | ⟨added, number, pieces, hown, hadded⟩
  · rw [hadded, List.length_append]
    exact Nat.le_add_left _ _
  · rw [hown, hadded, List.length_append, List.length_cons, List.length_cons]
    exact Nat.le_add_left _ _

/-- Each piece takes a state at least. -/
theorem length_le_totalSize {pieces : List Regex.Piece}
    (hplain : ∀ piece ∈ pieces, piece.directive = false) (d : Regex.Direction) :
    32 * pieces.length ≤ Regex.totalSize d pieces := by
  induction pieces with
  | nil => exact Nat.zero_le _
  | cons piece pieces ih =>
      obtain ⟨hpiece, hpieces⟩ := List.forall_mem_cons.mp hplain
      have hlater := ih hpieces
      have hleast := piece.node.le_size d
      rw [Regex.totalSize_cons, hpiece, List.length_cons]
      simp only [Bool.false_eq_true, if_false]
      omega

theorem length_le_weight_enclosed (elements : List Element) (extent : Extent) :
    32 * (readingOf elements).pieces.length ≤
      (enclosed (sequence (readingOf elements).pieces) extent).node.weight := by
  have hlength := length_le_totalSize (Regex.directive_readingOf elements) .forward
  have hsize := Regex.size_sequence
    (fun piece hmem => (Regex.flat_readingOf elements piece hmem).light) .forward
  have hforward : (sequence (readingOf elements).pieces).node.size .forward ≤
      (sequence (readingOf elements).pieces).node.weight := Nat.le_max_left _ _
  have hbody := Regex.weight_le_enclosed (sequence (readingOf elements).pieces) extent
  omega

/-! ## Names -/

/-- The groups of elements bear the names of their placeholders, in order. -/
theorem names_foldl_after (elements : List Element) (state : Regex.Reading) :
    ((elements.foldl Regex.Reading.after state).pieces.reverse.flatMap
        (·.node.groups)).filterMap (·.2) =
      (state.pieces.reverse.flatMap (·.node.groups)).filterMap (·.2) ++
        (namesOf elements).map String.ofList := by
  induction elements generalizing state with
  | nil => simp [namesOf]
  | cons element elements ih =>
      obtain ⟨hpieces, _⟩ := pieces_after state element
      rw [List.foldl_cons, ih, hpieces, List.reverse_append, List.flatMap_append,
        Element.groups_pieces, List.filterMap_append, List.append_assoc]
      cases element <;> simp [Element.captures, Element.name?, namesOf, List.filterMap_cons]

end Template

/-! ## Untyped patterns -/

variable {p q joined : Pattern}

/-- The text of the pattern accepts all of the path, whatever the extent of the pattern is. -/
def AcceptsWhole (p : Pattern) (path : String) : Prop := Splittable .whole p.elements path.toList

/-- The joined pattern matches what the first one accepts followed by what the second one
matches. -/
structure InTurn (joined p q : Pattern) : Prop where
  extent : joined.extent = q.extent
  accepts (path : String) : joined.accepts path = true ↔
    ∃ before after, path = before ++ after ∧ p.AcceptsWhole before ∧ q.accepts after = true

/-- The join of two texts is a template with an expression above the limit for the size of
expressions. -/
def JoinOversized (p q : Pattern) : Prop :=
  readsAsTemplate (p.text ++ q.text).toList = true ∧
    Regex.sizeLimit <
      (enclosed (sequence (readingOf (meet p.elements q.elements)).pieces) q.extent).node.weight

/-- An untyped pattern matches the paths that its elements can split. -/
theorem Parsed.accepts_iff_splittable (hp : p.Parsed) (huntyped : p.isUntyped = true)
    (path : String) : p.accepts path = true ↔ Splittable p.extent p.elements path.toList := by
  rw [hp.accepts_iff huntyped, atEnd_run_ne_nil_iff huntyped]

/-- A text has the same elements for every extent. -/
theorem Parsed.elements_of_parse (hp : p.Parsed) {extent : Extent}
    (hq : parse p.text extent = .ok q) : q.elements = p.elements := by
  have hparsed : q.Parsed := ⟨_, _, hq⟩
  have htext := text_of_parse hq
  cases hplain : readsAsTemplate p.text.toList with
  | false =>
      rw [hp.elements_of_plain hplain, hparsed.elements_of_plain (htext ▸ hplain), htext]
  | true =>
      have hown {r : Pattern} (hr : r.Parsed) (hsame : r.text = p.text) :
          Reads [] p.text.toList r.elements := by
        refine hsame ▸ hr.reads_of_not_hasStrayBrace fun hbrace => ?_
        rw [HasStrayBrace, hsame, hplain] at hbrace
        cases hbrace.1
      exact (hown hparsed htext).unique (hown hp rfl)

theorem Parsed.accepts_iff_acceptsWhole (hp : p.Parsed) (huntyped : p.isUntyped = true)
    (hwhole : parse p.text .whole = .ok q) (path : String) :
    q.accepts path = true ↔ p.AcceptsWhole path := by
  have helements := hp.elements_of_parse hwhole
  have hsame : q.isUntyped = true := by rw [isUntyped, helements]; exact huntyped
  rw [Parsed.accepts_iff_splittable ⟨_, _, hwhole⟩ hsame, extent_of_parse hwhole, helements]
  rfl

/-- The parameters of an untyped pattern are the names of its placeholders. -/
theorem Parsed.parameters_eq (hp : p.Parsed) (huntyped : p.isUntyped = true) :
    p.parameters = (namesOf p.elements).map String.ofList := by
  have hgroups : p.parameters = p.groups.filterMap (·.2) := by cases p <;> rfl
  rw [hgroups, hp.groups_eq huntyped, Regex.groups_sequence (Regex.directive_readingOf _)]
  exact names_foldl_after p.elements Regex.Reading.opened

theorem Parsed.isUntyped_of_plain (hp : p.Parsed)
    (hplain : readsAsTemplate p.text.toList = false) : p.isUntyped = true := by
  rw [isUntyped, hp.elements_of_plain hplain, foldr_consLiteral]
  split <;> rfl

theorem Parsed.parameters_eq_nil (hp : p.Parsed)
    (hplain : readsAsTemplate p.text.toList = false) : p.parameters = [] := by
  rw [hp.parameters_eq (hp.isUntyped_of_plain hplain), hp.elements_of_plain hplain,
    foldr_consLiteral]
  split <;> rfl

theorem Parsed.not_mem_namesOf (hp : p.Parsed) (hq : q.Parsed) (huntyped : p.isUntyped = true)
    (hother : q.isUntyped = true) (hdisjoint : p.parameters.Disjoint q.parameters) :
    ∀ name ∈ namesOf q.elements, name ∉ namesOf p.elements := by
  rw [hp.parameters_eq huntyped, hq.parameters_eq hother] at hdisjoint
  intro name hmem hused
  exact hdisjoint (List.mem_map_of_mem hused) (List.mem_map_of_mem hmem)

/-! ## Joins -/

section Join

variable (hp : p.Parsed) (hq : q.Parsed)

include hp hq

/-- A join that is a template has been read from both texts. -/
theorem Parsed.reads_of_join (hjoin : join p q = .ok joined)
    (htemplate : readsAsTemplate (p.text ++ q.text).toList = true) :
    Reads [] (p.text ++ q.text).toList joined.elements ∧
      ∃ regex, readChars? (Expression.anchored (bodyOf joined.elements) q.extent) = some regex := by
  rw [hp.join_eq hq] at hjoin
  rcases parse_eq_ok_iff.mp hjoin with ⟨_, t, ht, rfl⟩ | ⟨hplain, _⟩
  · obtain ⟨_, _, hread, regex, hregex, rfl⟩ := Template.ofText_eq_ok_iff.mp ht
    exact ⟨reads_of_readElements hread, regex, hregex⟩
  · cases hplain.symm.trans htemplate

/-- No closing brace of a literal stands in a template that is a join. -/
theorem Parsed.not_hasStrayBrace_of_join (hjoin : join p q = .ok joined)
    (htemplate : readsAsTemplate (p.text ++ q.text).toList = true) :
    ¬p.HasStrayBrace ∧ ¬q.HasStrayBrace := by
  obtain ⟨hreads, _⟩ := hp.reads_of_join hq hjoin htemplate
  rw [String.toList_append] at hreads
  have hown := hp.reads hreads
  obtain ⟨_, hlater, _⟩ := hown.of_append hreads
  constructor
  · rintro ⟨hplain, hmem⟩
    exact hown.not_mem_of_plain hplain hmem
  · rintro ⟨hplain, hmem⟩
    exact hlater.not_mem_of_plain hplain hmem

variable (huntyped : p.isUntyped = true) (hother : q.isUntyped = true)

include huntyped hother

theorem Parsed.not_joinOversized_of_join (hjoin : join p q = .ok joined) :
    ¬JoinOversized p q := by
  rintro ⟨htemplate, hlarge⟩
  obtain ⟨hreads, regex, hregex⟩ := hp.reads_of_join hq hjoin htemplate
  have hall : joined.elements.all Element.isUntyped = true :=
    hp.isUntyped_of_join hq hjoin huntyped hother
  obtain ⟨hweight, _⟩ := (hreads.readChars?_eq_some_iff hall q.extent).mp hregex
  rw [hp.elements_of_join hq hjoin] at hweight
  exact Nat.not_lt_of_le hweight hlarge

/-- Texts that are read in the same way in their join as by themselves can be joined, if that is
not too large. -/
theorem Parsed.exists_join_of_plainly (hmeet : JoinPlainly p q)
    (hdisjoint : p.parameters.Disjoint q.parameters) (hsize : ¬JoinOversized p q) :
    ∃ joined, join p q = .ok joined := by
  cases htemplate : readsAsTemplate (p.text ++ q.text).toList with
  | false =>
      obtain ⟨l, hjoin⟩ := hp.exists_join_of_plain hq htemplate
      exact ⟨_, hjoin⟩
  | true =>
      obtain ⟨hbrace, hnone⟩ := hmeet.braces htemplate
      have hreads := (hp.reads_of_not_hasStrayBrace hbrace).append
        (hq.reads_of_not_hasStrayBrace hnone)
        (hp.not_mem_namesOf hq huntyped hother hdisjoint) fun hstars => absurd hstars hmeet.stars
      rw [← String.toList_append] at hreads
      have hall : (meet p.elements q.elements).all Element.isUntyped = true := by
        rw [all_isUntyped_meet, Bool.and_eq_true]
        exact ⟨huntyped, hother⟩
      have hweight := Nat.le_of_not_lt fun hlarge => hsize ⟨htemplate, hlarge⟩
      have hregex := (hreads.readChars?_eq_some_iff hall q.extent).mpr ⟨hweight, rfl⟩
      have htext := Template.ofText_eq_ok_iff.mpr
        ⟨hp.opensProperly_join hq, _, hreads.readElements_eq, _, hregex, rfl⟩
      rw [hp.join_eq hq]
      exact ⟨_, parse_eq_ok_iff.mpr (.inl ⟨htemplate, _, htext, rfl⟩)⟩

/-- Two untyped texts that share no name and whose stars do not meet can be joined if no brace is
left over and the join is not too large. -/
theorem Parsed.exists_join_iff (hdisjoint : p.parameters.Disjoint q.parameters)
    (hstars : ¬StarsMeet p.text.toList q.text.toList) :
    (∃ joined, join p q = .ok joined) ↔ JoinPlainly p q ∧ ¬JoinOversized p q := by
  constructor
  · rintro ⟨joined, hjoin⟩
    exact ⟨⟨hstars, hp.not_hasStrayBrace_of_join hq hjoin⟩,
      hp.not_joinOversized_of_join hq huntyped hother hjoin⟩
  · rintro ⟨hmeet, hsize⟩
    exact hp.exists_join_of_plainly hq huntyped hother hmeet hdisjoint hsize

/-- A join matches what its elements split one after the other. -/
theorem Parsed.inTurn_of_join (hstars : ¬StarsMeet p.text.toList q.text.toList)
    (hjoin : join p q = .ok joined) : joined.InTurn p q := by
  obtain ⟨hjoined, _, hextent⟩ := hp.of_join hq hjoin
  refine ⟨hextent, fun path => ?_⟩
  rw [hjoined.accepts_iff_splittable (hp.isUntyped_of_join hq hjoin huntyped hother), hextent,
    hp.elements_of_join hq hjoin, splittable_meet (hp.not_touch hq hstars), splittable_append]
  simp only [AcceptsWhole, hq.accepts_iff_splittable hother]
  constructor
  · rintro ⟨before, after, hpath, hbefore, hafter⟩
    refine ⟨String.ofList before, String.ofList after, ?_, ?_, ?_⟩
    · rw [← String.ofList_append, ← hpath, String.ofList_toList]
    · rw [String.toList_ofList]
      exact hbefore
    · rw [String.toList_ofList]
      exact hafter
  · rintro ⟨before, after, rfl, hbefore, hafter⟩
    exact ⟨before.toList, after.toList, String.toList_append, hbefore, hafter⟩

/-- Where stars meet, they are one star each, and one element of the join. -/
theorem Parsed.accepts_of_join_of_starsMeet (hstars : StarsMeet p.text.toList q.text.toList)
    (hjoin : join p q = .ok joined) :
    ∃ front back, p.elements = front ++ [.segment] ∧ q.elements = .segment :: back ∧
      ∀ path : String, joined.accepts path = true ↔
        Splittable q.extent (front ++ .anything :: back) path.toList := by
  have htemplate : readsAsTemplate (p.text ++ q.text).toList = true := by
    obtain ⟨rest, hrest⟩ := List.head?_eq_some_iff.mp hstars.2
    rw [String.toList_append, hrest]
    simp [readsAsTemplate]
  obtain ⟨hreads, _⟩ := hp.reads_of_join hq hjoin htemplate
  rw [String.toList_append] at hreads
  have hearlier := hp.reads hreads
  obtain ⟨later, hlater, _⟩ := hearlier.of_append hreads
  have hown : Reads [] q.text.toList q.elements :=
    hq.reads ((List.append_nil q.text.toList).symm ▸ hlater)
  rw [← List.append_nil q.text.toList] at hreads
  have htouch := hearlier.touch_of_starsMeet hown hreads hstars
  obtain ⟨front, back, hfront, hback, hmeet⟩ := exists_of_touch htouch
  obtain ⟨hjoined, _, hextent⟩ := hp.of_join hq hjoin
  refine ⟨front, back, hfront, hback, fun path => ?_⟩
  rw [hjoined.accepts_iff_splittable (hp.isUntyped_of_join hq hjoin huntyped hother), hextent,
    hp.elements_of_join hq hjoin, hmeet]

/-- A literal is above the limit for expressions already: it cannot be joined with a template. -/
theorem Parsed.join_eq_error_of_long (hplain : readsAsTemplate p.text.toList = false)
    (hlong : Regex.sizeLimit < 32 * p.text.toList.length)
    (htemplate : readsAsTemplate q.text.toList = true) : ∃ fault, join p q = .error fault := by
  have hoversized : JoinOversized p q := by
    constructor
    · rw [String.toList_append, readsAsTemplate, List.any_append, Bool.or_eq_true]
      exact .inr htemplate
    · have hpieces : (readingOf p.elements).pieces.length = p.text.toList.length := by
        rw [hp.elements_of_plain hplain, readingOf, Regex.foldl_after_text]
        simp [Regex.Reading.pushText, Regex.Reading.opened]
      have hmeet := length_pieces_meet p.elements q.elements
      have hweight := length_le_weight_enclosed (meet p.elements q.elements) q.extent
      omega
  cases hjoin : join p q with
  | error fault => exact ⟨fault, rfl⟩
  | ok joined =>
      exact absurd hoversized (hp.not_joinOversized_of_join hq huntyped hother hjoin)

end Join

/-! ## One pattern behind the other -/

/-- Two patterns that have been read from texts without typed placeholders, and that share no
name. -/
structure UntypedTexts (p q : Pattern) : Prop where
  first : p.Parsed
  second : q.Parsed
  untyped : p.isUntyped = true
  other : q.isUntyped = true
  disjoint : p.parameters.Disjoint q.parameters

theorem UntypedTexts.of_plain (hp : p.Parsed) (hplain : readsAsTemplate p.text.toList = false)
    (hq : q.Parsed) (hother : q.isUntyped = true) : UntypedTexts p q := by
  refine ⟨hp, hq, hp.isUntyped_of_plain hplain, hother, ?_⟩
  rw [hp.parameters_eq_nil hplain]
  exact List.disjoint_nil_left _

/-- Whether two patterns are untyped and share no name. -/
def untypedApart (p q : Pattern) : Bool :=
  p.isUntyped && q.isUntyped && p.parameters.all fun name => !q.parameters.contains name

theorem UntypedTexts.of_untypedApart (hp : p.Parsed) (hq : q.Parsed)
    (happart : untypedApart p q = true) : UntypedTexts p q := by
  simp only [untypedApart, Bool.and_eq_true, List.all_eq_true, Bool.not_eq_true',
    List.contains_eq_mem, decide_eq_false_iff_not] at happart
  obtain ⟨⟨huntyped, hother⟩, hdisjoint⟩ := happart
  exact ⟨hp, hq, huntyped, hother, fun name => hdisjoint name⟩

theorem exists_texts_of_toOption_any {text more : String} {extent other : Extent}
    {check : Pattern → Pattern → Bool}
    (hcheck : ((parse text extent).toOption.any fun p => (parse more other).toOption.any fun q =>
      untypedApart p q && check p q) = true) :
    ∃ p q, UntypedTexts p q ∧ parse text extent = .ok p ∧ parse more other = .ok q ∧
      check p q = true := by
  obtain ⟨p, hp, hcheck⟩ := exists_of_toOption_any hcheck
  obtain ⟨q, hq, hcheck⟩ := exists_of_toOption_any hcheck
  obtain ⟨happart, hcheck⟩ := Bool.and_eq_true_iff.mp hcheck
  exact ⟨p, q, .of_untypedApart ⟨_, _, hp⟩ ⟨_, _, hq⟩ happart, hp, hq, hcheck⟩

/-- The join of two untyped texts matches what the first one accepts followed by what the second
one matches. The exception is a star that meets a star: the two are read as one. -/
theorem join_accepts_one_behind_other (htexts : UntypedTexts p q) :
    (¬StarsMeet p.text.toList q.text.toList →
      ((∃ joined, join p q = .ok joined) ↔ JoinPlainly p q ∧ ¬JoinOversized p q) ∧
        ∀ joined, join p q = .ok joined → joined.InTurn p q) ∧
    (StarsMeet p.text.toList q.text.toList → ∀ joined, join p q = .ok joined →
      ∃ front back, p.elements = front ++ [.segment] ∧ q.elements = .segment :: back ∧
        ∀ path : String, joined.accepts path = true ↔
          Splittable q.extent (front ++ .anything :: back) path.toList) ∧
    ∀ whole, parse p.text .whole = .ok whole →
      ∀ path, whole.accepts path = true ↔ p.AcceptsWhole path := by
  obtain ⟨hp, hq, huntyped, hother, hdisjoint⟩ := htexts
  refine ⟨fun hstars => ⟨?_, ?_⟩, ?_, ?_⟩
  · exact hp.exists_join_iff hq huntyped hother hdisjoint hstars
  · intro joined hjoin
    exact hp.inTurn_of_join hq huntyped hother hstars hjoin
  · intro hstars joined hjoin
    exact hp.accepts_of_join_of_starsMeet hq huntyped hother hstars hjoin
  · intro whole hwhole
    exact hp.accepts_iff_acceptsWhole huntyped hwhole

/-- A page behind the documents of any version. -/
theorem join_accepts_page_behind_documents :
    ∃ p q joined, UntypedTexts p q ∧ parse "/docs*" .leading = .ok p ∧
      parse "/\x7bpage\x7d" .whole = .ok q ∧ join p q = .ok joined ∧
      joined.accepts "/docs-v2/intro" = true ∧ joined.InTurn p q := by
  have hcheck : ((parse "/docs*" .leading).toOption.any fun p =>
      (parse "/\x7bpage\x7d" .whole).toOption.any fun q => untypedApart p q &&
        (join p q).toOption.any fun joined => joined.accepts "/docs-v2/intro") = true := by
    decide +kernel
  obtain ⟨p, q, htexts, hp, hq, hcheck⟩ := exists_texts_of_toOption_any hcheck
  obtain ⟨joined, hjoin, haccepts⟩ := exists_of_toOption_any hcheck
  have hstars : ¬StarsMeet p.text.toList q.text.toList := by
    rw [text_of_parse hp, text_of_parse hq, StarsMeet]
    decide
  obtain ⟨_, hinTurn⟩ := (join_accepts_one_behind_other htexts).1 hstars
  exact ⟨p, q, joined, htexts, hp, hq, hjoin, haccepts, hinTurn joined hjoin⟩

/-- Two stars that meet take a slash, which neither of them takes by itself; a brace that is left
over, and a text above the limit, are refused in a template. -/
theorem join_not_one_behind_other :
    (∃ p q joined, UntypedTexts p q ∧ parse "*" .leading = .ok p ∧ parse "*" .whole = .ok q ∧
      join p q = .ok joined ∧ joined.accepts "a/b" = true ∧
      ¬∃ before after, "a/b" = before ++ after ∧ p.AcceptsWhole before ∧
        q.accepts after = true) ∧
    (∃ p q, UntypedTexts p q ∧ parse "/\x7d" .leading = .ok p ∧
      parse "/\x7bid\x7d" .whole = .ok q ∧ ∃ fault, join p q = .error fault) ∧
    ∃ p q, UntypedTexts p q ∧
      parse (String.ofList ('/' :: List.replicate (2 * Regex.sizeLimit) 'a')) .leading = .ok p ∧
      parse "/*" .whole = .ok q ∧ ∃ fault, join p q = .error fault := by
  refine ⟨?_, ?_, ?_⟩
  · have hcheck : ((parse "*" .leading).toOption.any fun p =>
        (parse "*" .whole).toOption.any fun q => untypedApart p q &&
          (p.elements == [.segment] && q.elements == [.segment] &&
            (join p q).toOption.any fun joined => joined.accepts "a/b")) = true := by
      decide +kernel
    obtain ⟨p, q, htexts, hp, hq, hcheck⟩ := exists_texts_of_toOption_any hcheck
    simp only [Bool.and_eq_true, beq_iff_eq] at hcheck
    obtain ⟨⟨hfirst, hsecond⟩, hcheck⟩ := hcheck
    obtain ⟨joined, hjoin, haccepts⟩ := exists_of_toOption_any hcheck
    refine ⟨p, q, joined, htexts, hp, hq, hjoin, haccepts, ?_⟩
    rintro ⟨before, after, hpath, hbefore, hafter⟩
    rw [AcceptsWhole, hfirst, splittable_segment] at hbefore
    rw [htexts.second.accepts_iff_splittable htexts.other, hsecond, extent_of_parse hq,
      splittable_segment] at hafter
    have hmem : '/' ∈ (before ++ after).toList := by
      rw [← hpath]
      decide
    rw [String.toList_append, List.mem_append] at hmem
    exact hmem.elim hbefore hafter
  · have hcheck : ((parse "/\x7d" .leading).toOption.any fun p =>
        (parse "/\x7bid\x7d" .whole).toOption.any fun q =>
          untypedApart p q && !(join p q).toBool) = true := by decide +kernel
    obtain ⟨p, q, htexts, hp, hq, hcheck⟩ := exists_texts_of_toOption_any hcheck
    exact ⟨p, q, htexts, hp, hq, exists_error_of_toBool (by simpa using hcheck)⟩
  · have hplain : readsAsTemplate
        (String.ofList ('/' :: List.replicate (2 * Regex.sizeLimit) 'a')).toList = false := by
      simp [readsAsTemplate]
    obtain ⟨p, hp⟩ := exists_parse_of_opensProperly (by rw [String.toList_ofList]; rfl) hplain
      .leading
    have hcheck : ((parse "/*" .whole).toOption.any fun q => q.isUntyped) = true := by
      decide +kernel
    obtain ⟨q, hq, hother⟩ := exists_of_toOption_any hcheck
    have htext := text_of_parse hp
    rw [← htext] at hplain
    have htexts : UntypedTexts p q := .of_plain ⟨_, _, hp⟩ hplain ⟨_, _, hq⟩ hother
    refine ⟨p, q, htexts, hp, hq, ?_⟩
    refine htexts.first.join_eq_error_of_long htexts.second htexts.untyped hother hplain ?_ ?_
    · rw [htext, String.toList_ofList, List.length_cons, List.length_replicate]
      decide
    · rw [text_of_parse hq]
      decide

end RequestRouting.Pattern
