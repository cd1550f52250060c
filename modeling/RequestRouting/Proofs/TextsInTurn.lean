import RequestRouting.Proofs.ReadInTurn

/-!
# Joins of two texts

The join of two patterns that have been read from texts is one body after the other, if the texts
join plainly (`Pattern.JoinPlainly`): no star meets a star at their joint, and no closing brace of a
literal comes to stand in a template. It is refused if the two share a name
(`Pattern.Spelled.join_eq_error_of_clashes`), and otherwise only if it is too large
(`Pattern.Spelled.join_or_oversized`).
-/

namespace RequestRouting.Pattern

open Template
open Regex (Spells Adds readChars?)

variable {p q : Pattern} {first second : Regex.Reading}

theorem Parsed.isExpression_eq (hp : p.Parsed) : p.isExpression = false := by
  cases p with
  | expression e => exact absurd hp Parsed.ne_expression
  | literal l | template t => rfl

theorem Parsed.body_eq (hp : p.Parsed) : p.body = bodyOf p.elements := by
  obtain ⟨text, extent, hparse⟩ := hp
  rcases parse_eq_ok_iff.mp hparse with ⟨_, t, ht, rfl⟩ | ⟨_, l, _, rfl⟩
  · obtain ⟨_, elements, _, _, _, rfl⟩ := Template.ofText_eq_ok_iff.mp ht
    rfl
  · exact (Template.bodyOf_text l.text.toList).symm

/-- The elements of a pattern are read from its text, or are one text. -/
theorem Parsed.reads_or (hp : p.Parsed) :
    Reads [] p.text.toList p.elements ∨
      readsAsTemplate p.text.toList = false ∧
        p.elements = p.text.toList.foldr consLiteral [] := by
  obtain ⟨text, extent, hparse⟩ := hp
  have htext := text_of_parse hparse
  rcases parse_eq_ok_iff.mp hparse with ⟨_, t, ht, rfl⟩ | ⟨hplain, l, _, rfl⟩
  · obtain ⟨_, elements, hread, _, _, rfl⟩ := Template.ofText_eq_ok_iff.mp ht
    exact .inl (reads_of_readElements hread)
  · subst htext
    exact .inr ⟨hplain, rfl⟩

theorem Parsed.isWellFormed_eq (hp : p.Parsed) :
    p.isWellFormed = p.elements.all Element.isWellFormed := by
  cases p with
  | template t => rfl
  | literal l =>
      change true = (l.text.toList.foldr consLiteral []).all Element.isWellFormed
      rw [foldr_consLiteral]
      split <;> rfl
  | expression e => exact absurd hp Parsed.ne_expression

theorem Parsed.isWellFormed_of_join (hp : p.Parsed) (hq : q.Parsed) {joined : Pattern}
    (hjoin : join p q = .ok joined) (hwellFormed : p.isWellFormed = true)
    (hother : q.isWellFormed = true) : joined.isWellFormed = true := by
  obtain ⟨hjoined, _, _⟩ := hp.of_join hq hjoin
  rw [hjoined.isWellFormed_eq, hp.elements_of_join hq hjoin, all_isWellFormed_meet,
    ← hp.isWellFormed_eq, ← hq.isWellFormed_eq, hwellFormed, hother]
  rfl

/-- The text is a literal and has a closing brace, which no template may have by itself. -/
def HasStrayBrace (p : Pattern) : Prop :=
  readsAsTemplate p.text.toList = false ∧ '\x7d' ∈ p.text.toList

/-- Nothing is read in another way at the joint of two texts than by itself: no star meets a star,
and no closing brace of a literal comes to stand in a template. -/
structure JoinPlainly (p q : Pattern) : Prop where
  stars : ¬StarsMeet p.text.toList q.text.toList
  braces : readsAsTemplate (p.text ++ q.text).toList = true → ¬p.HasStrayBrace ∧ ¬q.HasStrayBrace

/-- The join of two texts is a template, but for its size. -/
def TextOversized (p q : Pattern) : Prop :=
  (p.isExpression || q.isExpression) = false ∧
    readsAsTemplate (p.text ++ q.text).toList = true ∧
    ∃ elements, readElements [] (p.text ++ q.text).toList = .ok elements ∧
      Regex.TooLarge (Expression.anchored (bodyOf elements) q.extent)

theorem TextOversized.join_eq_error (hsize : TextOversized p q) :
    ∃ fault, join p q = .error fault := by
  obtain ⟨htexts, htemplate, elements, hread, final, hfinal, hclosed, hadmitted⟩ := hsize
  have hjoin : join p q = parse (p.text ++ q.text) q.extent := by
    cases p with
    | expression e => cases htexts
    | literal _ | template _ =>
        cases q with
        | expression e => cases htexts
        | literal _ | template _ => rfl
  have hnone : readChars? (Expression.anchored (bodyOf elements) q.extent) = none := by
    rw [Regex.readChars?_eq, hfinal, Option.bind_some, Regex.Reading.finish?, hclosed]
    exact hadmitted
  cases hparse : join p q with
  | error fault => exact ⟨fault, rfl⟩
  | ok joined =>
      rw [hjoin] at hparse
      rcases parse_eq_ok_iff.mp hparse with ⟨_, t, ht, rfl⟩ | ⟨hplain, _⟩
      · obtain ⟨_, _, hown, regex, hregex, rfl⟩ := Template.ofText_eq_ok_iff.mp ht
        obtain rfl := Except.ok.inj (hread.symm.trans hown)
        cases hnone.symm.trans hregex
      · cases htemplate.symm.trans hplain

theorem Parsed.reads_of_not_hasStrayBrace (hp : p.Parsed) (hbrace : ¬p.HasStrayBrace) :
    Reads [] p.text.toList p.elements := by
  rcases hp.reads_or with hreads | ⟨hplain, helements⟩
  · exact hreads
  · rw [helements]
    exact reads_of_plain hplain fun hmem => hbrace ⟨hplain, hmem⟩

theorem Parsed.not_touch (hp : p.Parsed) (hq : q.Parsed)
    (hstars : ¬StarsMeet p.text.toList q.text.toList) : ¬Touch p.elements q.elements := by
  intro htouch
  have htext {r : Pattern} (helements : r.elements = r.text.toList.foldr consLiteral []) :
      .segment ∉ r.elements := by
    rw [helements, foldr_consLiteral]
    split <;> simp
  rcases hp.reads_or with hearlier | ⟨_, helements⟩
  · rcases hq.reads_or with hlater | ⟨_, helements⟩
    · exact hstars (hearlier.starsMeet_of_touch hlater htouch)
    · exact htext helements (List.mem_of_mem_head? htouch.2)
  · exact htext helements (List.mem_of_mem_getLast? htouch.1)

/-- What a text adds is known by what it is read into by itself. -/
theorem Spelled.of_spells (hp : p.Spelled first) (hspells : Spells p.body second) :
    p.Spelled second := by
  have hsame : ({} : Regex.Reading).add first = ({} : Regex.Reading).add second :=
    Option.some.inj (hp.spells.adds.standalone.read.symm.trans hspells.adds.standalone.read)
  have hnames : first.names = second.names := by
    simpa [Regex.Reading.add] using congrArg Regex.Reading.names hsame
  refine ⟨hspells, fun name hmem => hnames ▸ hp.names name hmem, ?_⟩
  rw [← Regex.Reading.level_add, ← hsame, Regex.Reading.level_add]
  exact hp.means

theorem Parsed.opensProperly_join (hp : p.Parsed) (hq : q.Parsed) :
    Template.opensProperly (p.text ++ q.text).toList = true := by
  rw [String.toList_append]
  exact opensProperly_append hp.opensProperly hq.opensProperly

/-- Two texts whose elements can be read, and are expressions, can be joined, unless the join is too
large. -/
theorem Parsed.join_or_oversized (hp : p.Parsed) (hq : q.Parsed)
    (htemplate : readsAsTemplate (p.text ++ q.text).toList = true) {elements : List Element}
    (hread : readElements [] (p.text ++ q.text).toList = .ok elements) {added : Regex.Reading}
    (hspells : Spells (bodyOf elements) added) :
    join p q = .ok (template ⟨p.text ++ q.text, elements, p.text ++ q.text, bodyOf elements,
        q.extent, (Regex.enclosed (Regex.sequence added.pieces) q.extent).node⟩) ∨
      TextOversized p q := by
  have htexts : (p.isExpression || q.isExpression) = false := by
    rw [hp.isExpression_eq, hq.isExpression_eq]
    rfl
  have hstandalone := hspells.adds.standalone
  cases hadmitted : (Regex.enclosed (Regex.sequence added.pieces) q.extent).admitted? with
  | none =>
      obtain ⟨whole, hwhole, hclosed, hlevel⟩ := hstandalone.readToEnd_anchored q.extent
      rw [Regex.Reading.level_add] at hlevel
      exact .inr ⟨htexts, htemplate, _, hread, whole, hwhole, hclosed, hlevel ▸ hadmitted⟩
  | some regex =>
      have hregex := hstandalone.readChars?_anchored q.extent
      rw [Regex.Reading.level_add, hadmitted] at hregex
      obtain ⟨_, rfl⟩ := Regex.Piece.admitted?_eq_some_iff.mp hadmitted
      rw [hp.join_eq hq]
      exact .inl (parse_eq_ok_iff.mpr (.inl ⟨htemplate, _,
        Template.ofText_eq_ok_iff.mpr
          ⟨hp.opensProperly_join hq, _, hread, _, hregex, rfl⟩, rfl⟩))

theorem Parsed.exists_join_of_plain (hp : p.Parsed) (hq : q.Parsed)
    (hplain : readsAsTemplate (p.text ++ q.text).toList = false) :
    ∃ l, join p q = .ok (literal l) := by
  rw [hp.join_eq hq]
  obtain ⟨joined, hjoin⟩ := exists_parse_of_opensProperly (hp.opensProperly_join hq) hplain q.extent
  rcases parse_eq_ok_iff.mp hjoin with ⟨htrue, _⟩ | ⟨_, l, _, rfl⟩
  · rw [hplain] at htrue
    cases htrue
  · exact ⟨l, hjoin⟩

/-- Two texts can be joined, or are too large together, if they can be read one after the other and
the elements are expressions. -/
theorem Parsed.exists_join_or_oversized (hp : p.Parsed) (hq : q.Parsed) {elements : List Element}
    (hreads : Reads [] (p.text.toList ++ q.text.toList) elements) {added : Regex.Reading}
    (hspells : Spells (bodyOf elements) added) :
    (∃ joined, join p q = .ok joined) ∨ TextOversized p q := by
  rw [← String.toList_append] at hreads
  cases htemplate : readsAsTemplate (p.text ++ q.text).toList with
  | false =>
      obtain ⟨l, hjoin⟩ := hp.exists_join_of_plain hq htemplate
      exact .inl ⟨_, hjoin⟩
  | true =>
      exact (hp.join_or_oversized hq htemplate hreads.readElements_eq hspells).imp_left
        fun hjoin => ⟨_, hjoin⟩

section Join

variable (hp : p.Parsed) (hq : q.Parsed) (hfirst : p.Spelled first) (hsecond : q.Spelled second)
  (hmeet : JoinPlainly p q)

include hp hq hmeet

theorem Parsed.body_of_join {joined : Pattern} (hjoin : join p q = .ok joined) :
    joined.body = p.body ++ q.body := by
  obtain ⟨hjoined, _, _⟩ := hp.of_join hq hjoin
  rw [hjoined.body_eq, hp.elements_of_join hq hjoin, bodyOf_meet (hp.not_touch hq hmeet.stars),
    hp.body_eq, hq.body_eq]

include hfirst hsecond

/-- Two texts with a name in common cannot be joined. -/
theorem Spelled.join_eq_error_of_clashes (hwellFormed : p.isWellFormed = true)
    (hother : q.isWellFormed = true) (hclash : first.clashes second = true) :
    ∃ fault, join p q = .error fault := by
  cases hjoin : join p q with
  | error fault => exact ⟨fault, rfl⟩
  | ok joined =>
      obtain ⟨hjoined, _, _⟩ := hp.of_join hq hjoin
      have hall := hp.isWellFormed_of_join hq hjoin hwellFormed hother
      obtain ⟨added, hadded⟩ := hjoined.exists_spelled hall
      have hnone := hfirst.spells.adds.append hsecond.spells.adds
      rw [Option.bind_some, Option.bind_some, hclash, if_pos rfl,
        ← hp.body_of_join hq hmeet hjoin] at hnone
      exact absurd hnone hadded.spells.not_adds_none

/-- Otherwise the join is one body after the other, unless it is too large. -/
theorem Spelled.join_or_oversized (hfree : first.clashes second = false) :
    (∃ joined, join p q = .ok joined ∧ joined.Parsed ∧ joined.Spelled (first.add second) ∧
      joined.extent = q.extent) ∨ TextOversized p q := by
  cases htemplate : readsAsTemplate (p.text ++ q.text).toList with
  | false =>
      obtain ⟨l, hjoin⟩ := hp.exists_join_of_plain hq htemplate
      obtain ⟨hjoined, _, hextent⟩ := hp.of_join hq hjoin
      have hbody := hp.body_of_join hq hmeet hjoin
      refine .inl ⟨_, hjoin, hjoined, ?_, hextent⟩
      exact l.spelled.of_spells (hbody ▸ hfirst.spells.append hsecond.spells hfree)
  | true =>
      obtain ⟨hbrace, hother⟩ := hmeet.braces htemplate
      have hearlier := hp.reads_of_not_hasStrayBrace hbrace
      have hlater := hq.reads_of_not_hasStrayBrace hother
      have hnew : ∀ name ∈ namesOf q.elements, name ∉ namesOf p.elements := by
        intro name hmem hused
        have hclash : first.clashes second = true :=
          List.any_eq_true.mpr ⟨_, hsecond.names name hmem,
            List.contains_iff_mem.mpr (hfirst.names name hused)⟩
        rw [hfree] at hclash
        cases hclash
      have hreads := hearlier.append hlater hnew fun hstars => absurd hstars hmeet.stars
      rw [← String.toList_append] at hreads
      have hspells : Spells (bodyOf (meet p.elements q.elements)) (first.add second) := by
        rw [bodyOf_meet (hp.not_touch hq hmeet.stars), ← hp.body_eq, ← hq.body_eq]
        exact hfirst.spells.append hsecond.spells hfree
      refine (hp.join_or_oversized hq htemplate hreads.readElements_eq hspells).imp_left ?_
      intro hjoin
      obtain ⟨hjoined, _, hextent⟩ := hp.of_join hq hjoin
      refine ⟨_, hjoin, hjoined, ⟨hspells, ?_, Template.means _⟩, hextent⟩
      intro name hmem
      change name ∈ namesOf (meet p.elements q.elements) at hmem
      rw [namesOf_meet, List.mem_append] at hmem
      rcases hmem with hmem | hmem
      · exact List.mem_append_right _ (hfirst.names name hmem)
      · exact List.mem_append_left _ (hsecond.names name hmem)

end Join

end RequestRouting.Pattern
