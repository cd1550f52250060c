import RequestRouting.Proofs.Bodies

/-!
# Under the pattern that matches every path

Handlers at the top are mounted under the pattern that matches every path. A pattern from text is
read again from the same text, and an expression gets two more groups around it; either way it
matches and extracts what it did before (`Pattern.alike_of_join_any`).

A literal need not have been read from text. If there is a brace or a star in it, it is a template
once it has been mounted, or is refused. And two more groups may be more than an expression that is
deep already can bear (`Pattern.not_alike_of_join_any`).
-/

namespace RequestRouting.Pattern

open Regex (readChars?)

/-- The pattern has been made from text, for every path, from an expression, or as a literal or a
template of its own. -/
inductive Constructed : Pattern → Prop
  | parsed {text : String} {extent : Extent} {p : Pattern} (hp : parse text extent = .ok p) :
      Constructed p
  | any : Constructed any
  | expression {text : String} {e : Expression} (he : Expression.ofText text = .ok e) :
      Constructed (.expression e)
  | literal {text : String} {extent : Extent} {l : Literal}
      (hl : Literal.ofText text extent = .ok l) : Constructed (.literal l)
  | template {text : String} {extent : Extent} {t : Template}
      (ht : Template.ofText text extent = .ok t) : Constructed (.template t)

theorem Constructed.exists_template {t : Template} (ht : (Pattern.template t).Constructed) :
    ∃ text extent, Template.ofText text extent = .ok t := by
  cases ht with
  | parsed hparse =>
      rcases parse_eq_ok_iff.mp hparse with ⟨_, _, ht, heq⟩ | ⟨_, _, _, heq⟩ <;> cases heq
      exact ⟨_, _, ht⟩
  | template ht => exact ⟨_, _, ht⟩

theorem Constructed.exists_expression {e : Expression} (he : (Pattern.expression e).Constructed) :
    ∃ text, Expression.ofText text = .ok e := by
  cases he with
  | parsed hparse =>
      rcases parse_eq_ok_iff.mp hparse with ⟨_, _, _, heq⟩ | ⟨_, _, _, heq⟩ <;> cases heq
  | expression he => exact ⟨_, he⟩

/-- The expression of a pattern has its text, and its body has been read between the anchors. -/
theorem Constructed.expression?_eq {p : Pattern} (hp : p.Constructed) {e : Expression}
    (he : p.expression? = some e) :
    e.text = p.text ∧ e.body = p.body ∧
      readChars? (Expression.anchored e.body e.extent) = some e.regex := by
  cases p with
  | literal => cases he
  | template t =>
      cases he
      obtain ⟨_, _, ht⟩ := hp.exists_template
      obtain ⟨_, _, _, _, hregex, rfl⟩ := Template.ofText_eq_ok_iff.mp ht
      exact ⟨rfl, rfl, hregex⟩
  | expression e =>
      cases he
      obtain ⟨_, he⟩ := hp.exists_expression
      exact ⟨rfl, rfl, (Expression.exists_of_ofText he).2.2.2⟩

/-- A template without braces and stars means what the literal with its text does. -/
theorem Template.alike_literal {text : String} {extent : Extent} {t : Template}
    (ht : ofText text extent = .ok t) (hplain : readsAsTemplate text.toList = false) :
    (literal ⟨text, extent⟩).Alike (template t) := by
  obtain ⟨_, elements, hread, regex, hregex, rfl⟩ := Template.ofText_eq_ok_iff.mp ht
  have hreads := reads_of_readElements hread
  have hown := reads_of_append hplain ((List.append_nil text.toList).symm ▸ hreads)
  have helements : elements = text.toList.foldr consLiteral [] :=
    Except.ok.inj (hread.symm.trans hown.readElements_eq)
  subst helements
  rw [bodyOf_text, (Regex.Spells.escape _).adds.readChars?_anchored, Option.bind_some,
    Regex.Reading.level_add] at hregex
  obtain ⟨_, rfl⟩ := Regex.Piece.admitted?_eq_some_iff.mp hregex
  exact (Literal.means ⟨text, extent⟩).alike rfl (Template.means _) (.refl _)

theorem Template.join_any {text : String} {extent : Extent} {t : Template}
    (ht : ofText text extent = .ok t) : join any (template t) = parse text extent := by
  obtain ⟨_, _, _, _, _, rfl⟩ := Template.ofText_eq_ok_iff.mp ht
  have hjoin : any.text ++ text = text := String.empty_append
  exact congrArg (parse · extent) hjoin

theorem exists_core_any :
    ∃ core, any.Core core ∧ core.names = [] ∧ core.groups = 0 ∧ core.level.node = .empty ∧
      core.level.depth = 0 := by
  have hempty : Literal.any.text.toList = [] := String.toList_empty
  refine ⟨_, (Literal.spelled Literal.any).core, ?_⟩
  rw [Regex.Reading.level_add, hempty]
  exact ⟨rfl, rfl, rfl, rfl⟩

/-- An expression under the pattern that matches every path. -/
theorem Core.join_any_alike {e : Expression} {core : Regex.Reading}
    (hcore : (expression e).Core core) :
    (∃ joined, join any (expression e) = .ok joined ∧ joined.Alike (expression e)) ∨
      Oversized any (expression e) := by
  obtain ⟨other, hany, hnames, hgroups, hnode, _⟩ := exists_core_any
  have hfree : other.clashes core = false := by simp [Regex.Reading.clashes, hnames]
  refine (hany.join_or_oversized hcore rfl hfree).imp_left ?_
  rintro ⟨joined, hjoin, hjoined, hextent, _⟩
  refine ⟨joined, hjoin, hjoined.means.alike hextent hcore.means ?_⟩
  rw [Regex.Reading.level_joined, hnode, hgroups, Regex.raise_zero]
  exact .empty_seq _

/-- A pattern under the one that matches every path covers as much of a path, matches the same
paths, has the same parameters and extracts the same values as by itself. Literals that would read
as templates are left out, and so are expressions whose body is none by itself; and what is an
expression may become too large. -/
theorem alike_of_join_any {p : Pattern} (hp : p.Constructed)
    (hplain : ∀ l, p = literal l → readsAsTemplate l.text.toList = false)
    (hbody : ∀ e, p = expression e → (readChars? e.body).isSome = true) :
    (∃ joined, join any p = .ok joined ∧ joined.Alike p) ∨ Oversized any p := by
  cases hp with
  | parsed hparse => exact .inl ⟨p, Parsed.join_any ⟨_, _, hparse⟩, .refl p⟩
  | any => exact .inl ⟨any, parsed_any.join_any, .refl any⟩
  | @literal text extent l hl =>
      have hparse : parse text extent = .ok (.literal l) := by
        obtain ⟨_, rfl⟩ := Literal.ofText_eq_ok_iff.mp hl
        exact parse_eq_ok_iff.mpr (.inr ⟨hplain _ rfl, _, hl, rfl⟩)
      exact .inl ⟨_, Parsed.join_any ⟨_, _, hparse⟩, .refl _⟩
  | @template text extent t ht =>
      rw [Template.join_any ht]
      cases hreads : readsAsTemplate text.toList with
      | true => exact .inl ⟨_, parse_eq_ok_iff.mpr (.inl ⟨hreads, t, ht, rfl⟩), .refl _⟩
      | false =>
          obtain ⟨hopens, _⟩ := Template.ofText_eq_ok_iff.mp ht
          obtain ⟨own, hown⟩ := exists_parse_of_opensProperly hopens hreads extent
          rcases parse_eq_ok_iff.mp hown with ⟨htemplate, _⟩ | ⟨_, l, hl, rfl⟩
          · rw [hreads] at htemplate
            cases htemplate
          · obtain ⟨_, rfl⟩ := Literal.ofText_eq_ok_iff.mp hl
            exact .inl ⟨_, hown, Template.alike_literal ht hreads⟩
  | @expression text e he =>
      obtain ⟨core, hcore⟩ := Expression.exists_core he (hbody e rfl)
      exact hcore.join_any_alike

/-- An expression with two alternatives and a named group. -/
theorem alike_of_join_any_alternatives :
    ∃ e joined, Expression.ofText "/(?P<year>[0-9]+)|/now$" = .ok e ∧
      join any (expression e) = .ok joined ∧ joined.Alike (expression e) := by
  have hcheck : ((Expression.ofText "/(?P<year>[0-9]+)|/now$").toOption.any fun e =>
      (readChars? e.body).isSome && (join any (expression e)).toBool) = true := by decide +kernel
  obtain ⟨e, he, hcheck⟩ := exists_of_toOption_any hcheck
  obtain ⟨hbody, hjoin⟩ := Bool.and_eq_true_iff.mp hcheck
  rcases alike_of_join_any (.expression he) nofun (by rintro _ ⟨⟩; exact hbody) with
    ⟨joined, hjoined, halike⟩ | hsize
  · exact ⟨e, joined, he, hjoined, halike⟩
  · obtain ⟨fault, herror⟩ := hsize.join_eq_error
    rw [herror] at hjoin
    cases hjoin

/-- A slash in as many groups. -/
def nested : Nat → List Char
  | 0 => ['/']
  | depth + 1 => ['(', '?', ':'] ++ nested depth ++ [')']

theorem exists_standalone_nested (depth : Nat) :
    ∃ core, Regex.Standalone (nested depth) core ∧ core.level.depth = depth ∧
      core.level.node = .chars (.single '/') := by
  induction depth with
  | zero =>
      refine ⟨_, (Regex.Spells.escape ['/']).adds.standalone, ?_⟩
      rw [Regex.Reading.level_add]
      exact ⟨rfl, rfl⟩
  | succ depth ih =>
      obtain ⟨core, hcore, hdepth, hnode⟩ := ih
      refine ⟨_, hcore.adds_grouped.standalone, ?_⟩
      rw [Regex.Reading.level_add]
      exact ⟨(congrArg (1 + ·) hdepth).trans (Nat.add_comm 1 depth), hnode⟩

/-- What nests almost to the limit is accepted by itself. -/
theorem exists_ofText_nested {depth : Nat} (hfits : depth + 2 ≤ Regex.nestingLimit) :
    ∃ e core, Expression.ofText (String.ofList (nested depth)) = .ok e ∧
      (readChars? e.body).isSome = true ∧ e.extent = .leading ∧ (expression e).Core core ∧
      core.level.depth = depth ∧ core.level.node = .chars (.single '/') := by
  obtain ⟨core, hcore, hdepth, hnode⟩ := exists_standalone_nested depth
  have hweight : core.level.node.weight = 32 := by
    rw [hnode]
    rfl
  have hlight : 96 ≤ Regex.sizeLimit := by decide
  have hbody : (readChars? (nested depth)).isSome = true := by
    have hadmitted : core.level.admitted? = some core.level.node :=
      Regex.Piece.admitted?_eq_some_iff.mpr ⟨⟨by omega, by omega⟩, rfl⟩
    rw [Regex.readChars?_eq, hcore.read, Option.bind_some, Regex.Reading.finish?, hcore.closed]
    exact Option.isSome_of_eq_some hadmitted
  have hregex : readChars? (Expression.anchored (nested depth) .leading) =
      some (Regex.enclosed core.level .leading).node := by
    rw [hcore.readChars?_anchored]
    exact Regex.admitted?_enclosed_of_fits (by omega) (by omega)
  have hcompile : Expression.ofText (String.ofList (nested depth)) =
      Expression.compile (String.ofList (nested depth)) (nested depth) := by
    unfold Expression.ofText
    rw [String.toList_ofList]
    cases depth <;> rfl
  have hplain : Expression.endsWithAnchor (nested depth) = false := by
    cases depth with
    | zero => rfl
    | succ depth => exact Expression.endsWithAnchor_concat (by decide) _
  refine ⟨⟨String.ofList (nested depth), nested depth, .leading,
    (Regex.enclosed core.level .leading).node⟩, core, ?_, hbody, rfl, ⟨hcore, Expression.means _⟩,
    hdepth, hnode⟩
  rw [hcompile]
  unfold Expression.compile
  simp only [hplain, Bool.false_eq_true, if_false, hregex]

/-- With two more groups around it, it nests too deeply. -/
theorem join_any_nested {depth : Nat} (hfits : depth + 2 ≤ Regex.nestingLimit)
    (hdeep : Regex.nestingLimit < depth + 4) :
    ∃ e, Expression.ofText (String.ofList (nested depth)) = .ok e ∧
      (readChars? e.body).isSome = true ∧ ∃ fault, join any (expression e) = .error fault := by
  obtain ⟨e, core, he, hbody, _, hcore, hdepth, _⟩ := exists_ofText_nested hfits
  obtain ⟨other, hany, _⟩ := exists_core_any
  refine ⟨e, he, hbody, hany.join_eq_error_of_deep hcore rfl ?_⟩
  have hlevel := congrArg Regex.Piece.depth (other.level_joined core)
  dsimp only at hlevel
  omega

/-- A literal with a brace is refused when it is read again, and an expression that nests to the
limit nests too deeply with two more groups around it. -/
theorem not_alike_of_join_any :
    (∃ l, Literal.ofText "/\x7b" .whole = .ok l ∧ ∃ fault, join any (literal l) = .error fault) ∧
    ∃ e, Expression.ofText (String.ofList (nested 248)) = .ok e ∧
      (readChars? e.body).isSome = true ∧ ∃ fault, join any (expression e) = .error fault := by
  have hliteral : (join any (literal ⟨"/\x7b", .whole⟩)).toBool = false := by decide +kernel
  exact ⟨⟨_, rfl, exists_error_of_toBool hliteral⟩, join_any_nested (by decide) (by decide)⟩

end RequestRouting.Pattern
