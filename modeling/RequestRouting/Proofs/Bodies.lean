import RequestRouting.Proofs.Alike
import RequestRouting.Proofs.Anchoring

/-!
# The bodies of patterns

Where the expressions in it are well-formed, the body of a pattern can be put anywhere: it is an
expression of its own (`Pattern.Core`), and the body of a template adds the same pieces wherever it
stands (`Regex.Spells`). So it is known what the join with an expression is: one body after the
other, each in a group, unless they share a name or the join is too large
(`Pattern.Core.join_or_oversized`).
-/

namespace RequestRouting

open Pattern.Template (Element isIdentifier segmentBody namesOf bodyOf)
open Pattern.Expression (anchored)

namespace Regex

/-! ## Texts of expressions -/

/-- The text stands for known expressions, wherever it is put. -/
structure Spells (text : List Char) (added : Reading) : Prop where
  adds : Adds text (some added)
  plain : ∀ piece ∈ added.pieces, piece.directive = false

namespace Spells

variable {text more : List Char} {first second : Reading}

theorem nil : Spells [] {} := ⟨Adds.nil, nofun⟩

theorem append (htext : Spells text first) (hmore : Spells more second)
    (hfree : first.clashes second = false) : Spells (text ++ more) (first.add second) where
  adds := by
    have hadds := htext.adds.append hmore.adds
    rwa [Option.bind_some, Option.bind_some, hfree, if_neg Bool.false_ne_true] at hadds
  plain := by
    refine List.forall_mem_append.mpr ⟨?_, htext.plain⟩
    simpa [Piece.raise] using hmore.plain

theorem escape (text : List Char) : Spells (escape text) (({} : Reading).pushText text) where
  adds := by
    intro state tail hflags
    have hadd : state.add (({} : Reading).pushText text) = state.pushText text := by
      simp [Reading.add, Reading.pushText, Piece.raise, raise]
    rw [readToEnd_escape hflags, Option.bind_some, hadd]
    rfl
  plain := by simp [Reading.pushText]

theorem segment :
    Spells Element.segment.body (({} : Reading).pushRun none 0 notSlash 1) where
  adds := fun _ _ hflags => readToEnd_segment hflags
  plain := by simp [Reading.pushRun]

theorem anything :
    Spells Element.anything.body (({} : Reading).pushRun none 0 notLineFeed 0) where
  adds := fun _ _ hflags => readToEnd_anything hflags
  plain := by simp [Reading.pushRun]

theorem not_adds_none (htext : Spells text first) : ¬Adds text none := fun hnone =>
  absurd (htext.adds.standalone.read.symm.trans hnone.readToEnd_eq_none) nofun

end Spells

@[simp] theorem Piece.raise_zero : Piece.raise 0 = id := by
  funext piece
  simp [Piece.raise]

namespace Reading

variable (added outer inner : Reading)

@[simp] theorem level_add : (({} : Reading).add added).level = sequence added.pieces := by
  simp [level, add, choice]

/-- One expression after another, each in a group. -/
def joined : Reading := ({} : Reading).add (outer.grouped.add inner.grouped)

theorem level_joined :
    (outer.joined inner).level =
      ⟨.seq outer.level.node (inner.level.node.raise outer.groups),
        1 + max (1 + inner.level.depth) (1 + outer.level.depth), false⟩ := by
  rw [joined, level_add]
  simp [add, grouped, Piece.raise, sequence]

@[simp] theorem groups_joined : (outer.joined inner).groups = outer.groups + inner.groups :=
  Nat.zero_add _

@[simp] theorem names_joined : (outer.joined inner).names = inner.names ++ outer.names :=
  List.append_nil _

end Reading

/-- The text is an expression, but for its size. -/
def TooLarge (text : List Char) : Prop :=
  ∃ final, readToEnd {} text = some final ∧ final.frames = [] ∧ final.level.admitted? = none

theorem depth_enclosed (body : Piece) (extent : Extent) :
    (enclosed body extent).depth = body.depth + 2 := by
  cases extent <;> simp [enclosed, sequence] <;> omega

/-- Between the anchors an expression nests two levels deeper. -/
theorem admitted?_enclosed_of_deep {body : Piece} (hdeep : nestingLimit < body.depth + 2)
    (extent : Extent) : (enclosed body extent).admitted? = none := by
  rw [Option.eq_none_iff_forall_ne_some]
  intro regex hregex
  obtain ⟨⟨hsmall, _⟩, _⟩ := Piece.admitted?_eq_some_iff.mp hregex
  rw [depth_enclosed] at hsmall
  omega

theorem admitted?_enclosed_of_fits {body : Piece} (hdepth : body.depth + 2 ≤ nestingLimit)
    (hweight : body.node.weight + 64 ≤ sizeLimit) {extent : Extent} :
    (enclosed body extent).admitted? = some (enclosed body extent).node := by
  refine Piece.admitted?_eq_some_iff.mpr ⟨⟨by rwa [depth_enclosed], ?_⟩, rfl⟩
  rw [weight_enclosed]
  split <;> omega

/-- The expression of a placeholder without one of its own. -/
theorem standalone_segmentBody :
    Standalone segmentBody { pieces := [⟨many 1 none true (chars notSlash), 2, false⟩] } where
  read := (readToEnd_step rfl rfl).trans
    ((readToEnd_step rfl rfl).trans (readToEnd_of_skip_eq_nil rfl))
  closed := rfl
  within := fun _ _ => (readToEnd_step rfl rfl).trans (readToEnd_step rfl rfl)

end Regex

namespace Pattern

open Regex (readChars? Standalone Spells Adds)

/-- The text is an expression by itself, and can be put in a group. -/
def isOwnExpression (text : List Char) : Bool :=
  (readChars? text).isSome && (readChars? (anchored text .leading)).isSome

/-- The expression of a placeholder, if it has one, is well-formed. -/
def Template.Element.isWellFormed : Element → Bool
  | .parameter _ (some constraint) => isOwnExpression constraint
  | .literal _ | .segment | .anything | .parameter _ none => true

theorem exists_standalone_of_isOwnExpression {text : List Char}
    (hown : isOwnExpression text = true) : ∃ final, Standalone text final := by
  obtain ⟨hread, hanchored⟩ := Bool.and_eq_true_iff.mp hown
  obtain ⟨r, hread⟩ := Option.isSome_iff_exists.mp hread
  obtain ⟨regex, hanchored⟩ := Option.isSome_iff_exists.mp hanchored
  obtain ⟨final, hfinal, hclosed, _⟩ := Regex.exists_readToEnd_of_readChars? hread
  exact ⟨final, .of_anchored hfinal hclosed hanchored⟩

theorem Template.foldr_consLiteral (text : List Char) :
    text.foldr consLiteral [] = if text = [] then [] else [.literal text] := by
  induction text with
  | nil => rfl
  | cons c text ih =>
      rw [List.foldr_cons, ih]
      cases text <;> rfl

theorem Template.bodyOf_text (text : List Char) :
    bodyOf (text.foldr consLiteral []) = Regex.escape text := by
  rw [foldr_consLiteral]
  split
  · subst text
    rfl
  · exact List.append_nil _

/-- What the text of an element is read into. -/
inductive Template.Element.ReadAs : Element → Regex.Reading → Prop
  | literal (text : List Char) : ReadAs (.literal text) (({} : Regex.Reading).pushText text)
  | segment : ReadAs .segment (({} : Regex.Reading).pushRun none 0 Regex.notSlash 1)
  | anything : ReadAs .anything (({} : Regex.Reading).pushRun none 0 Regex.notLineFeed 0)
  | parameter {name : List Char} {constraint : Option (List Char)} {final : Regex.Reading}
      (hfinal : Standalone (constraint.getD segmentBody) final)
      (hunused : final.names.contains (String.ofList name) = false) :
      ReadAs (.parameter name constraint) (final.named (String.ofList name))

/-- What the texts of elements one after the other are read into. -/
inductive Template.ReadAs : List Element → Regex.Reading → Prop
  | nil : ReadAs [] {}
  | cons {element : Element} {elements : List Element} {first second : Regex.Reading}
      (hfirst : element.ReadAs first) (hsecond : ReadAs elements second)
      (hfree : first.clashes second = false) : ReadAs (element :: elements) (first.add second)

namespace Template

theorem Element.ReadAs.spells {element : Element} {added : Regex.Reading}
    (hread : element.ReadAs added) (hname : ∀ name ∈ element.name?, isIdentifier name = true) :
    Spells element.body added := by
  cases hread with
  | literal text => exact .escape text
  | segment => exact .segment
  | anything => exact .anything
  | parameter hfinal hunused =>
      have hadds := hfinal.adds_named (hname _ rfl)
      rw [hunused, if_neg Bool.false_ne_true] at hadds
      exact ⟨hadds, by simp [Regex.Reading.named]⟩

theorem Element.ReadAs.names {element : Element} {added : Regex.Reading}
    (hread : element.ReadAs added) : ∀ name ∈ element.name?, String.ofList name ∈ added.names := by
  cases hread with
  | literal | segment | anything => nofun
  | parameter hfinal hunused =>
      rintro _ ⟨⟩
      simp [Regex.Reading.named]

theorem ReadAs.spells {elements : List Element} {added : Regex.Reading}
    (hread : ReadAs elements added)
    (hnames : ∀ name ∈ namesOf elements, isIdentifier name = true) :
    Spells (bodyOf elements) added := by
  induction hread with
  | nil => exact .nil
  | @cons element elements first second hfirst hsecond hfree ih =>
      have hbody : bodyOf (element :: elements) = element.body ++ bodyOf elements :=
        List.flatMap_cons
      rw [hbody]
      refine (hfirst.spells fun name hmem => ?_).append (ih fun name hmem => ?_) hfree
      · exact hnames name (List.mem_filterMap.mpr ⟨element, List.mem_cons_self, hmem⟩)
      · obtain ⟨other, hother, hname⟩ := List.mem_filterMap.mp hmem
        exact hnames name (List.mem_filterMap.mpr ⟨other, .tail _ hother, hname⟩)

theorem ReadAs.names {elements : List Element} {added : Regex.Reading}
    (hread : ReadAs elements added) :
    ∀ name ∈ namesOf elements, String.ofList name ∈ added.names := by
  induction hread with
  | nil => nofun
  | cons hfirst hsecond hfree ih =>
      intro name hmem
      obtain ⟨other, hother, hown⟩ := List.mem_filterMap.mp hmem
      rcases List.mem_cons.mp hother with rfl | hother
      · exact List.mem_append_right _ (hfirst.names name hown)
      · exact List.mem_append_left _ (ih name (List.mem_filterMap.mpr ⟨other, hother, hown⟩))

/-- It is known what an element is read into, wherever it is put, or it is refused everywhere. -/
theorem Element.readAs_or (element : Element) (hwellFormed : element.isWellFormed = true)
    (hname : ∀ name ∈ element.name?, isIdentifier name = true) :
    (∃ added, element.ReadAs added) ∨ Adds element.body none := by
  cases element with
  | literal text => exact .inl ⟨_, .literal text⟩
  | segment => exact .inl ⟨_, .segment⟩
  | anything => exact .inl ⟨_, .anything⟩
  | parameter name constraint =>
      have hstandalone : ∃ final, Standalone (constraint.getD segmentBody) final := by
        cases constraint with
        | none => exact ⟨_, Regex.standalone_segmentBody⟩
        | some constraint => exact exists_standalone_of_isOwnExpression hwellFormed
      obtain ⟨final, hfinal⟩ := hstandalone
      cases hused : final.names.contains (String.ofList name) with
      | false => exact .inl ⟨_, .parameter hfinal hused⟩
      | true =>
          have hadds := hfinal.adds_named (hname name rfl)
          rw [hused, if_pos rfl] at hadds
          exact .inr hadds

/-- So it is with elements one after the other. -/
theorem readAs_or (elements : List Element)
    (hwellFormed : elements.all Element.isWellFormed = true)
    (hnames : ∀ name ∈ namesOf elements, isIdentifier name = true) :
    (∃ added, ReadAs elements added) ∨ Adds (bodyOf elements) none := by
  induction elements with
  | nil => exact .inl ⟨_, .nil⟩
  | cons element elements ih =>
      obtain ⟨hwellFormed, hlater⟩ := Bool.and_eq_true_iff.mp (List.all_cons ▸ hwellFormed)
      have hbody : bodyOf (element :: elements) = element.body ++ bodyOf elements :=
        List.flatMap_cons
      have hname : ∀ name ∈ element.name?, isIdentifier name = true := fun name hmem =>
        hnames name (List.mem_filterMap.mpr ⟨element, List.mem_cons_self, hmem⟩)
      have hothers : ∀ name ∈ namesOf elements, isIdentifier name = true := by
        intro name hmem
        obtain ⟨other, hother, hname⟩ := List.mem_filterMap.mp hmem
        exact hnames name (List.mem_filterMap.mpr ⟨other, .tail _ hother, hname⟩)
      rw [hbody]
      rcases element.readAs_or hwellFormed hname with ⟨first, hfirst⟩ | hnone
      · rcases ih hlater hothers with ⟨second, hsecond⟩ | hnone
        · cases hclash : first.clashes second with
          | false => exact .inl ⟨_, .cons hfirst hsecond hclash⟩
          | true =>
              have hadds := (hfirst.spells hname).adds.append (hsecond.spells hothers).adds
              rw [Option.bind_some, Option.bind_some, hclash, if_pos rfl] at hadds
              exact .inr hadds
        · exact .inr ((hfirst.spells hname).adds.append hnone)
      · exact .inr (hnone.none_append _)

/-- Elements stand for known expressions, wherever they are put, or are refused everywhere. -/
theorem spells_or (elements : List Element)
    (hwellFormed : elements.all Element.isWellFormed = true)
    (hnames : ∀ name ∈ namesOf elements, isIdentifier name = true) :
    (∃ added, Spells (bodyOf elements) added ∧
      ∀ name ∈ namesOf elements, String.ofList name ∈ added.names) ∨
      Adds (bodyOf elements) none :=
  (readAs_or elements hwellFormed hnames).imp_left fun ⟨added, hread⟩ =>
    ⟨added, hread.spells hnames, hread.names⟩

/-- The expression of a template is what its elements are read into, between the anchors. -/
theorem exists_readAs {text : String} {extent : Extent} {t : Template}
    (ht : ofText text extent = .ok t) (hwellFormed : t.elements.all Element.isWellFormed = true) :
    ∃ added, ReadAs t.elements added ∧ t.expression.extent = extent ∧
      t.expression.regex = (Regex.enclosed (Regex.sequence added.pieces) extent).node := by
  obtain ⟨_, elements, hread, regex, hregex, rfl⟩ := Template.ofText_eq_ok_iff.mp ht
  obtain ⟨_, hnames⟩ := (reads_of_readElements hread).names
  have hidentifiers : ∀ name ∈ namesOf elements, isIdentifier name = true := fun name hmem =>
    (hnames name hmem).1
  rcases readAs_or elements hwellFormed hidentifiers with ⟨added, hadded⟩ | hnone
  · rw [(hadded.spells hidentifiers).adds.readChars?_anchored, Option.bind_some,
      Regex.Reading.level_add] at hregex
    exact ⟨added, hadded, rfl, (Regex.Piece.admitted?_eq_some_iff.mp hregex).2.symm⟩
  · rw [hnone.readChars?_anchored] at hregex
    cases hregex

end Template

/-! ## Patterns -/

/-- The body of the pattern is an expression of its own, and between the anchors that is what the
pattern means. -/
structure Core (p : Pattern) (core : Regex.Reading) : Prop where
  standalone : Standalone p.body core
  means : p.Means (Regex.enclosed core.level p.extent).node

/-- The body of the pattern stands for known expressions, wherever it is put. -/
structure Spelled (p : Pattern) (added : Regex.Reading) : Prop where
  spells : Spells p.body added
  names : ∀ name ∈ namesOf p.elements, String.ofList name ∈ added.names
  means : p.Means (Regex.enclosed (Regex.sequence added.pieces) p.extent).node

variable {p q : Pattern}

theorem Spelled.core {added : Regex.Reading} (hp : p.Spelled added) :
    p.Core (({} : Regex.Reading).add added) :=
  ⟨hp.spells.adds.standalone, by rw [Regex.Reading.level_add]; exact hp.means⟩

theorem Literal.spelled (l : Literal) :
    (literal l).Spelled (({} : Regex.Reading).pushText l.text.toList) where
  spells := .escape _
  names := by
    change ∀ name ∈ namesOf (l.text.toList.foldr Template.consLiteral []), _
    rw [Template.foldr_consLiteral]
    split <;> nofun
  means := l.means

/-- The expressions that the placeholders of a pattern have, and the body of one that is an
expression, are well-formed by themselves. -/
def isWellFormed : Pattern → Bool
  | literal _ => true
  | template t => t.elements.all Element.isWellFormed
  | expression e => (readChars? e.body).isSome

theorem Template.exists_readAs_spelled {text : String} {extent : Extent} {t : Template}
    (ht : ofText text extent = .ok t) (hwellFormed : (template t).isWellFormed = true) :
    ∃ added, ReadAs t.elements added ∧ (template t).Spelled added := by
  obtain ⟨added, hadded, _, hregex⟩ := exists_readAs ht hwellFormed
  obtain ⟨_, elements, hread, regex, _, rfl⟩ := Template.ofText_eq_ok_iff.mp ht
  obtain ⟨_, hnames⟩ := (reads_of_readElements hread).names
  refine ⟨added, hadded, hadded.spells fun name hmem => (hnames name hmem).1, hadded.names, ?_⟩
  obtain rfl : regex = (Regex.enclosed (Regex.sequence added.pieces) extent).node := hregex
  exact Template.means _

theorem Template.exists_spelled {text : String} {extent : Extent} {t : Template}
    (ht : ofText text extent = .ok t) (hwellFormed : (template t).isWellFormed = true) :
    ∃ added, (template t).Spelled added := by
  obtain ⟨added, _, hspelled⟩ := exists_readAs_spelled ht hwellFormed
  exact ⟨added, hspelled⟩

theorem Parsed.exists_spelled (hp : p.Parsed) (hwellFormed : p.isWellFormed = true) :
    ∃ added, p.Spelled added := by
  obtain ⟨text, extent, hparse⟩ := hp
  rcases parse_eq_ok_iff.mp hparse with ⟨_, t, ht, rfl⟩ | ⟨_, l, _, rfl⟩
  · exact Template.exists_spelled ht hwellFormed
  · exact ⟨_, l.spelled⟩

theorem Expression.exists_core {text : String} {e : Expression} (he : ofText text = .ok e)
    (hwellFormed : (expression e).isWellFormed = true) : ∃ core, (expression e).Core core := by
  obtain ⟨r, hbody⟩ := Option.isSome_iff_exists.mp hwellFormed
  obtain ⟨final, hstandalone, _, hregex⟩ := regex_of_wellFormed he hbody
  exact ⟨final, hstandalone, hregex ▸ e.means⟩

/-! ## Joins with an expression -/

/-- The pattern is an expression. -/
def isExpression : Pattern → Bool
  | expression _ => true
  | literal _ | template _ => false

/-- The body of the join with an expression. -/
def bodies (outer inner : Pattern) : List Char :=
  (['(', '?', ':'] ++ outer.body ++ [')']) ++ (['(', '?', ':'] ++ inner.body ++ [')'])

/-- The join with an expression is one, but for its size. -/
def Oversized (outer inner : Pattern) : Prop :=
  (outer.isExpression || inner.isExpression) = true ∧
    Regex.TooLarge (anchored (bodies outer inner) inner.extent)

/-- The end anchor stands behind both groups. -/
theorem joinedBody_eq (p q : Pattern) :
    joinedBody p q = bodies p q ++ Expression.endAnchor q.extent := by
  cases hextent : q.extent <;> simp [joinedBody, bodies, Expression.endAnchor, hextent]

/-- Whatever the bodies end in, a group ends in its parenthesis. -/
theorem endsPlainly_bodies (p q : Pattern) : Expression.EndsPlainly (bodies p q) := by
  have hbodies : bodies p q =
      ['(', '?', ':'] ++ p.body ++ [')'] ++ (['(', '?', ':'] ++ q.body) ++ [')'] := by
    simp [bodies]
  rw [hbodies]
  exact .concat (by decide) (by decide) _

theorem join_of_isExpression (hexpression : (p.isExpression || q.isExpression) = true) :
    join p q =
      match readChars? (anchored (bodies p q) q.extent) with
      | some regex =>
          .ok (expression ⟨String.ofList (joinedBody p q), bodies p q, q.extent, regex⟩)
      | none => .error ⟨String.ofList (joinedBody p q), .invalidExpression⟩ := by
  have hjoin : join p q = ofExpression (String.ofList (joinedBody p q)) := by
    cases p <;> cases q <;> cases hexpression <;> rfl
  have htext : Expression.ofText (String.ofList (joinedBody p q)) =
      Expression.compile (String.ofList (joinedBody p q)) (joinedBody p q) := by
    unfold Expression.ofText
    rw [String.toList_ofList]
    rfl
  have hcompile (text : String) : Expression.compile text (joinedBody p q) =
      match readChars? (anchored (bodies p q) q.extent) with
      | some regex => .ok ⟨text, bodies p q, q.extent, regex⟩
      | none => .error ⟨text, .invalidExpression⟩ := by
    rw [joinedBody_eq]
    exact (endsPlainly_bodies p q).compile_append text q.extent
  rw [hjoin, ofExpression, htext, hcompile]
  cases readChars? (anchored (bodies p q) q.extent) <;> rfl

/-- Patterns that are no expressions are joined by reading both texts. -/
theorem join_of_isExpression_eq_false (htexts : (p.isExpression || q.isExpression) = false) :
    join p q = parse (p.text ++ q.text) q.extent := by
  cases p with
  | expression _ => cases htexts
  | literal _ | template _ =>
      cases q with
      | expression _ => cases htexts
      | literal _ | template _ => rfl

theorem Oversized.join_eq_error (hsize : Oversized p q) : ∃ fault, join p q = .error fault := by
  obtain ⟨hexpression, final, hread, hclosed, hadmitted⟩ := hsize
  have hnone : readChars? (anchored (bodies p q) q.extent) = none := by
    rw [Regex.readChars?_eq, hread, Option.bind_some, Regex.Reading.finish?, hclosed]
    exact hadmitted
  rw [join_of_isExpression hexpression, hnone]
  exact ⟨_, rfl⟩

section Join

variable {core other : Regex.Reading} (hp : p.Core core) (hq : q.Core other)
  (hexpression : (p.isExpression || q.isExpression) = true)

include hp hq hexpression

/-- Two bodies with a name in common cannot be joined. -/
theorem Core.join_eq_error_of_clashes (hclash : core.clashes other = true) :
    ∃ fault, join p q = .error fault := by
  have hadds : Adds (bodies p q) none := by
    have happend := hp.standalone.adds_grouped.append hq.standalone.adds_grouped
    have hgrouped : core.grouped.clashes other.grouped = true := hclash
    rwa [Option.bind_some, Option.bind_some, hgrouped, if_pos rfl] at happend
  rw [join_of_isExpression hexpression, hadds.readChars?_anchored]
  exact ⟨_, rfl⟩

omit hexpression

theorem Core.standalone_bodies (hfree : core.clashes other = false) :
    Standalone (bodies p q) (core.joined other) := by
  have hadds := hp.standalone.adds_grouped.append hq.standalone.adds_grouped
  have hgrouped : core.grouped.clashes other.grouped = false := hfree
  rw [Option.bind_some, Option.bind_some, hgrouped, if_neg Bool.false_ne_true] at hadds
  exact hadds.standalone

include hexpression

/-- Otherwise the join is one body after the other, unless it is too large. -/
theorem Core.join_or_oversized (hfree : core.clashes other = false) :
    (∃ joined, join p q = .ok joined ∧ joined.Core (core.joined other) ∧
      joined.extent = q.extent ∧ joined.isExpression = true) ∨ Oversized p q := by
  have hstandalone := hp.standalone_bodies hq hfree
  rw [join_of_isExpression hexpression, hstandalone.readChars?_anchored]
  cases hadmitted : (Regex.enclosed (core.joined other).level q.extent).admitted? with
  | none =>
      obtain ⟨whole, hread, hclosed, hlevel⟩ := hstandalone.readToEnd_anchored q.extent
      exact .inr ⟨hexpression, whole, hread, hclosed, hlevel ▸ hadmitted⟩
  | some regex =>
      refine .inl ⟨_, rfl, ⟨hstandalone, ?_⟩, rfl, rfl⟩
      obtain ⟨_, rfl⟩ := Regex.Piece.admitted?_eq_some_iff.mp hadmitted
      exact Expression.means _

/-- A join that nests too deeply is refused. -/
theorem Core.join_eq_error_of_deep
    (hdeep : Regex.nestingLimit < (core.joined other).level.depth + 2) :
    ∃ fault, join p q = .error fault := by
  cases hclash : core.clashes other with
  | true => exact hp.join_eq_error_of_clashes hq hexpression hclash
  | false =>
      obtain ⟨whole, hread, hclosed, hlevel⟩ :=
        (hp.standalone_bodies hq hclash).readToEnd_anchored q.extent
      refine Oversized.join_eq_error ⟨hexpression, whole, hread, hclosed, ?_⟩
      rw [hlevel]
      exact Regex.admitted?_enclosed_of_deep hdeep q.extent

/-- A join within the limits is accepted. -/
theorem Core.exists_join_of_fits (hfree : core.clashes other = false)
    (hdepth : (core.joined other).level.depth + 2 ≤ Regex.nestingLimit)
    (hweight : (core.joined other).level.node.weight + 64 ≤ Regex.sizeLimit) :
    ∃ joined, join p q = .ok joined ∧ joined.Core (core.joined other) ∧
      joined.extent = q.extent ∧ joined.isExpression = true := by
  rcases hp.join_or_oversized hq hexpression hfree with hjoin | ⟨_, whole, hread, _, hnone⟩
  · exact hjoin
  · obtain ⟨final, hfinal, _, hlevel⟩ :=
      (hp.standalone_bodies hq hfree).readToEnd_anchored q.extent
    obtain rfl := Option.some.inj (hread.symm.trans hfinal)
    rw [hlevel, Regex.admitted?_enclosed_of_fits hdepth hweight] at hnone
    cases hnone

end Join

end Pattern

end RequestRouting
