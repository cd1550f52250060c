import RequestRouting.Proofs.JoinedCores
import RequestRouting.Proofs.UnderAny

/-!
# Joining is associative

Three patterns can be joined from either side. Texts are joined as texts, so for three of them it
makes no difference (`Pattern.Parsed.join_either_way`). With an expression among them, the one way
puts two texts together that the other one keeps in groups of their own. Where nothing is read in
another way at their joint, both ways fail, or both succeed with patterns that are alike, unless
one of them is too large on the way (`Pattern.Solid.join_either_way`). Where stars meet there, they
are one element in the one way and two in the other.
-/

namespace RequestRouting.Pattern

open Template
open Regex.Reading (Same)

/-- The pattern has been read from text or made from an expression. -/
def Built (p : Pattern) : Prop := p.Parsed ∨ ∃ text, ofExpression text = .ok p

/-- Both results are patterns that are alike, or both are faults. -/
inductive Agree : Except PatternError Pattern → Except PatternError Pattern → Prop
  | ok {p q : Pattern} (halike : p.Alike q) : Agree (.ok p) (.ok q)
  | error (fault other : PatternError) : Agree (.error fault) (.error other)

/-- One of the joins on the way to the join of three patterns is refused for its size only. -/
inductive TooLargeInTurn (p q s : Pattern) : Prop
  | first (hsize : TooLargeTogether p q)
  | second (hsize : TooLargeTogether q s)
  | behind {inner : Pattern} (hinner : join q s = .ok inner) (hsize : TooLargeTogether p inner)
  | before {outer : Pattern} (houter : join p q = .ok outer) (hsize : TooLargeTogether outer s)

variable {p q s : Pattern}

/-- In that case one of the two ways fails. -/
theorem TooLargeInTurn.exists_error (hsize : TooLargeInTurn p q s) :
    (∃ fault, (join q s >>= join p) = .error fault) ∨
      ∃ fault, (join p q >>= fun outer => join outer s) = .error fault := by
  cases hsize with
  | first hsize =>
      obtain ⟨fault, hjoin⟩ := hsize.join_eq_error
      exact .inr ⟨fault, by rw [hjoin]; rfl⟩
  | second hsize =>
      obtain ⟨fault, hjoin⟩ := hsize.join_eq_error
      exact .inl ⟨fault, by rw [hjoin]; rfl⟩
  | behind hinner hsize =>
      obtain ⟨fault, hjoin⟩ := hsize.join_eq_error
      exact .inl ⟨fault, by rw [hinner]; exact hjoin⟩
  | before houter hsize =>
      obtain ⟨fault, hjoin⟩ := hsize.join_eq_error
      exact .inr ⟨fault, by rw [houter]; exact hjoin⟩

theorem Built.exists_solid (hp : p.Built) (hwellFormed : p.isWellFormed = true) :
    ∃ core, Solid p core := by
  rcases hp with hp | ⟨text, hp⟩
  · obtain ⟨added, hspelled⟩ := hp.exists_spelled hwellFormed
    exact ⟨_, .text hp hwellFormed hspelled⟩
  · obtain ⟨e, he, rfl⟩ := map_eq_ok_iff.mp hp
    obtain ⟨core, hcore⟩ := Expression.exists_core he hwellFormed
    exact ⟨core, .expression rfl hcore⟩

theorem Built.parsed (hp : p.Built) (htext : p.isExpression = false) : p.Parsed := by
  rcases hp with hp | ⟨text, hp⟩
  · exact hp
  · obtain ⟨e, _, rfl⟩ := map_eq_ok_iff.mp hp
    cases htext

variable {a b c : Regex.Reading}

/-- What joining patterns comes to: it is refused if two of them share a name, and otherwise made of
the given expression. -/
inductive Yields (clash : Bool) (core : Regex.Reading) (extent : Extent) :
    Except PatternError Pattern → Prop
  | error (hclash : clash = true) (fault : PatternError) : Yields clash core extent (.error fault)
  | ok (hfree : clash = false) {joined : Pattern} {own : Regex.Reading} (hsolid : Solid joined own)
      (hsame : Same own core) (hextent : joined.extent = extent) :
      Yields clash core extent (.ok joined)

theorem Yields.agree {clash : Bool} {extent : Extent} {first second : Except PatternError Pattern}
    (hfirst : Yields clash a extent first) (hsecond : Yields clash b extent second)
    (hsame : Same a b) : Agree first second := by
  cases hfirst with
  | error hclash =>
      cases hsecond with
      | error => exact .error _ _
      | ok hfree => exact absurd (hfree.symm.trans hclash) nofun
  | ok hfree hsolid hown hextent =>
      cases hsecond with
      | error hclash => exact absurd (hfree.symm.trans hclash) nofun
      | ok _ hother hothers hotherExtent =>
          exact .ok (hsolid.core.means.alike (hextent.trans hotherExtent.symm) hother.core.means
            ((hown.trans hsame).trans hothers.symm).node)

section Solid

variable (hexpression : (p.isExpression || q.isExpression || s.isExpression) = true)

include hexpression

/-- With an expression among three patterns, the second join of two is none of texts. -/
theorem Solid.joins_inner (hp : Solid p a) {inner : Pattern} {core : Regex.Reading}
    (hinner : Solid inner core) (hkind : inner.isExpression = (q.isExpression || s.isExpression)) :
    Joins p inner a core := by
  refine hp.joins hinner fun htext hother => ?_
  rw [hkind] at hother
  rw [htext, Bool.false_or, hother] at hexpression
  cases hexpression

theorem Solid.outer_joins (hs : Solid s c) {outer : Pattern} {core : Regex.Reading}
    (houter : Solid outer core) (hkind : outer.isExpression = (p.isExpression || q.isExpression)) :
    Joins outer s core c := by
  refine houter.joins hs fun hother htext => ?_
  rw [hkind] at hother
  rw [hother, Bool.false_or, htext] at hexpression
  cases hexpression

/-- The join that starts behind the first pattern. -/
theorem Solid.yields_right (hp : Solid p a) (hq : Solid q b) (hs : Solid s c)
    (hsecond : q.isExpression = false → s.isExpression = false → JoinPlainly q s) :
    Yields (a.clashes b || a.clashes c || b.clashes c) (a.joined (b.joined c)) s.extent
        (join q s >>= join p) ∨
      TooLargeInTurn p q s := by
  cases hq.joins hs hsecond with
  | tooLarge hsize => exact .inr (.second hsize)
  | refused hclash hinner =>
      rw [hinner]
      exact .inl (.error (by rw [hclash, Bool.or_true]) _)
  | joined hfree hinner hsolid hsame hextent hkind =>
      rw [hinner]
      change Yields _ _ _ (join p _) ∨ _
      cases hp.joins_inner hexpression hsolid hkind with
      | tooLarge hsize => exact .inr (.behind hinner hsize)
      | refused hclash hwhole =>
          rw [hsame.clashes_right] at hclash
          rw [hwhole]
          exact .inl (.error (by rw [hclash, Bool.true_or]) _)
      | joined hothers hwhole hsolid hwholeSame hwholeExtent =>
          rw [hsame.clashes_right] at hothers
          rw [hwhole]
          exact .inl (.ok (by rw [hothers, hfree, Bool.or_false]) hsolid
            (hwholeSame.trans ((Same.refl a).joined hsame)) (hwholeExtent.trans hextent))

/-- The join that starts with the first two patterns. -/
theorem Solid.yields_left (hp : Solid p a) (hq : Solid q b) (hs : Solid s c)
    (hfirst : p.isExpression = false → q.isExpression = false → JoinPlainly p q) :
    Yields (a.clashes b || a.clashes c || b.clashes c) ((a.joined b).joined c) s.extent
        (join p q >>= fun outer => join outer s) ∨
      TooLargeInTurn p q s := by
  rw [Bool.or_assoc]
  cases hp.joins hq hfirst with
  | tooLarge hsize => exact .inr (.first hsize)
  | refused hclash houter =>
      rw [houter]
      exact .inl (.error (by rw [hclash, Bool.true_or]) _)
  | joined hfree houter hsolid hsame _ hkind =>
      rw [houter]
      change Yields _ _ _ (join _ s) ∨ _
      cases hs.outer_joins hexpression hsolid hkind with
      | tooLarge hsize => exact .inr (.before houter hsize)
      | refused hclash hwhole =>
          rw [hsame.clashes_left] at hclash
          rw [hwhole]
          exact .inl (.error (by rw [hclash, Bool.or_true]) _)
      | joined hothers hwhole hsolid hwholeSame hextent =>
          rw [hsame.clashes_left] at hothers
          rw [hwhole]
          exact .inl (.ok (by rw [hothers, hfree, Bool.or_false]) hsolid
            (hwholeSame.trans (hsame.joined (.refl c))) hextent)

/-- Three patterns, one of them an expression, can be joined from either side. -/
theorem Solid.join_either_way (hp : Solid p a) (hq : Solid q b) (hs : Solid s c)
    (hfirst : p.isExpression = false → q.isExpression = false → JoinPlainly p q)
    (hsecond : q.isExpression = false → s.isExpression = false → JoinPlainly q s) :
    Agree (join q s >>= join p) (join p q >>= fun outer => join outer s) ∨
      TooLargeInTurn p q s := by
  rcases hp.yields_right hexpression hq hs hsecond with hright | hsize
  · rcases hp.yields_left hexpression hq hs hfirst with hleft | hsize
    · exact .inl (hright.agree hleft (.assoc a b c))
    · exact .inr hsize
  · exact .inr hsize

end Solid

/-! ## Three texts -/

/-- If three texts can be read one after the other, the first two can, and the last two, and it
makes no difference which of them are put together first. -/
theorem Parsed.reads_in_turn (hp : p.Parsed) (hq : q.Parsed) (hs : s.Parsed)
    {elements : List Element}
    (hreads : Reads [] (p.text.toList ++ (q.text.toList ++ s.text.toList)) elements) :
    Reads [] (p.text.toList ++ q.text.toList) (meet p.elements q.elements) ∧
      Reads [] (q.text.toList ++ s.text.toList) (meet q.elements s.elements) ∧
      elements = meet p.elements (meet q.elements s.elements) ∧
      elements = meet (meet p.elements q.elements) s.elements := by
  have hearlier := hp.reads hreads
  obtain ⟨later, hlater, rfl⟩ := hearlier.of_append hreads
  have hmiddle := hq.reads hlater
  obtain ⟨last, hlast, rfl⟩ := hmiddle.of_append hlater
  have hown : Reads [] s.text.toList s.elements := by
    rw [← List.append_nil s.text.toList] at hlast
    exact hs.reads hlast
  obtain rfl := hlast.unique hown
  have hboth := hearlier.append_of_append hmiddle hreads
  rw [← List.append_assoc] at hreads
  obtain ⟨rest, hrest, heq⟩ := hboth.of_append hreads
  exact ⟨hboth, hlater, rfl, by rw [heq, hrest.unique hlast]⟩

/-- Then both pairs can be joined, unless they are too large. -/
theorem Parsed.joins_of_parse (hp : p.Parsed) (hq : q.Parsed) (hs : s.Parsed)
    (hfirst : p.isWellFormed = true) (hsecond : q.isWellFormed = true)
    (hthird : s.isWellFormed = true) {whole : Pattern}
    (hparse : parse (p.text ++ (q.text ++ s.text)) s.extent = .ok whole) :
    ((∃ outer, join p q = .ok outer) ∨ TextOversized p q) ∧
      ((∃ inner, join q s = .ok inner) ∨ TextOversized q s) := by
  rcases parse_eq_ok_iff.mp hparse with ⟨_, t, ht, rfl⟩ | ⟨hplain, _⟩
  · obtain ⟨_, elements, hread, _, _, rfl⟩ := Template.ofText_eq_ok_iff.mp ht
    have hreads := reads_of_readElements hread
    have hidentifiers := hreads.names.2
    rw [String.toList_append, String.toList_append] at hreads
    obtain ⟨houter, hinner, hright, hleft⟩ := hp.reads_in_turn hq hs hreads
    rw [hp.isWellFormed_eq] at hfirst
    rw [hq.isWellFormed_eq] at hsecond
    rw [hs.isWellFormed_eq] at hthird
    have hmeet {earlier later : List Element} (hearlier : earlier.all Element.isWellFormed = true)
        (hlater : later.all Element.isWellFormed = true) :
        (meet earlier later).all Element.isWellFormed = true := by
      rw [all_isWellFormed_meet, hearlier, hlater]
      rfl
    have hwellFormed : elements.all Element.isWellFormed = true :=
      hright ▸ hmeet hfirst (hmeet hsecond hthird)
    obtain ⟨added, hspelled⟩ := Template.exists_spelled ht hwellFormed
    have hspells : Regex.Spells (bodyOf elements) added := hspelled.spells
    have hnames {earlier later : List Element} (heq : elements = meet earlier later) :
        (∀ name ∈ namesOf earlier, isIdentifier name = true) ∧
          ∀ name ∈ namesOf later, isIdentifier name = true := by
      rw [heq, namesOf_meet] at hidentifiers
      exact List.forall_mem_append.mp fun name hmem => (hidentifiers name hmem).1
    obtain ⟨_, _, hlast⟩ := exists_spells_of_meet hfirst (hmeet hsecond hthird) (hnames hright).1
      (hnames hright).2 (hright ▸ hspells)
    obtain ⟨⟨_, hboth⟩, _⟩ := exists_spells_of_meet (hmeet hfirst hsecond) hthird (hnames hleft).1
      (hnames hleft).2 (hleft ▸ hspells)
    exact ⟨hp.exists_join_or_oversized hq houter hboth,
      hq.exists_join_or_oversized hs hinner hlast⟩
  · rw [String.toList_append, String.toList_append] at hplain
    simp only [readsAsTemplate, List.any_append, Bool.or_eq_false_iff] at hplain
    obtain ⟨hearlier, hmiddle, hlast⟩ := hplain
    have hplain {first second : String} (hfirst : readsAsTemplate first.toList = false)
        (hsecond : readsAsTemplate second.toList = false) :
        readsAsTemplate (first ++ second).toList = false := by
      rw [String.toList_append, readsAsTemplate, List.any_append]
      exact Bool.or_eq_false_iff.mpr ⟨hfirst, hsecond⟩
    obtain ⟨_, houter⟩ := hp.exists_join_of_plain hq (hplain hearlier hmiddle)
    obtain ⟨_, hinner⟩ := hq.exists_join_of_plain hs (hplain hmiddle hlast)
    exact ⟨.inl ⟨_, houter⟩, .inl ⟨_, hinner⟩⟩

/-- Three texts can be joined from either side. -/
theorem Parsed.join_either_way (hp : p.Parsed) (hq : q.Parsed) (hs : s.Parsed)
    (hfirst : p.isWellFormed = true) (hsecond : q.isWellFormed = true)
    (hthird : s.isWellFormed = true) :
    Agree (join q s >>= join p) (join p q >>= fun outer => join outer s) ∨
      TooLargeInTurn p q s := by
  have hbehind {inner : Pattern} (hinner : join q s = .ok inner) :
      join p inner = parse (p.text ++ (q.text ++ s.text)) s.extent := by
    obtain ⟨hparsed, htext, hextent⟩ := hq.of_join hs hinner
    rw [hp.join_eq hparsed, htext, hextent]
  have hbefore {outer : Pattern} (houter : join p q = .ok outer) :
      join outer s = parse (p.text ++ (q.text ++ s.text)) s.extent := by
    obtain ⟨hparsed, htext, _⟩ := hp.of_join hq houter
    rw [hparsed.join_eq hs, htext, String.append_assoc]
  cases hparse : parse (p.text ++ (q.text ++ s.text)) s.extent with
  | error fault =>
      have hinner : ∃ other, (join q s >>= join p) = .error other := by
        cases hjoin : join q s with
        | error other => exact ⟨other, rfl⟩
        | ok inner => exact ⟨fault, (hbehind hjoin).trans hparse⟩
      have houter : ∃ other, (join p q >>= fun outer => join outer s) = .error other := by
        cases hjoin : join p q with
        | error other => exact ⟨other, rfl⟩
        | ok outer => exact ⟨fault, (hbefore hjoin).trans hparse⟩
      obtain ⟨_, hinner⟩ := hinner
      obtain ⟨_, houter⟩ := houter
      rw [hinner, houter]
      exact .inl (.error _ _)
  | ok whole =>
      obtain ⟨houter, hinner⟩ := hp.joins_of_parse hq hs hfirst hsecond hthird hparse
      rcases houter with ⟨outer, houter⟩ | hsize
      · rcases hinner with ⟨inner, hinner⟩ | hsize
        · rw [houter, hinner]
          change Agree (join p inner) (join outer s) ∨ _
          rw [hbehind hinner, hbefore houter, hparse]
          exact .inl (.ok (.refl whole))
        · exact .inr (.second (.inr hsize))
      · exact .inr (.first (.inr hsize))

/-- Three patterns can be joined from either side, and if that succeeds the results are alike,
unless an expression on the way is too large. Where a single outer one is an expression, the two
texts are joined as texts on one of the ways only, so nothing must be read there in another way. -/
theorem join_assoc (hp : p.Built) (hq : q.Built) (hs : s.Built) (hfirst : p.isWellFormed = true)
    (hsecond : q.isWellFormed = true) (hthird : s.isWellFormed = true)
    (hlast : p.isExpression = true → q.isExpression = false → s.isExpression = false →
      JoinPlainly q s)
    (houtermost : p.isExpression = false → q.isExpression = false → s.isExpression = true →
      JoinPlainly p q) :
    Agree (join q s >>= join p) (join p q >>= fun outer => join outer s) ∨
      TooLargeInTurn p q s := by
  cases hexpression : p.isExpression || q.isExpression || s.isExpression with
  | false =>
      simp only [Bool.or_eq_false_iff] at hexpression
      obtain ⟨⟨htext, hmiddle⟩, hother⟩ := hexpression
      exact (hp.parsed htext).join_either_way (hq.parsed hmiddle) (hs.parsed hother) hfirst hsecond
        hthird
  | true =>
      obtain ⟨_, hp⟩ := hp.exists_solid hfirst
      obtain ⟨_, hq⟩ := hq.exists_solid hsecond
      obtain ⟨_, hs⟩ := hs.exists_solid hthird
      refine hp.join_either_way hexpression hq hs ?_ ?_
      · intro htext hmiddle
        rw [htext, hmiddle, Bool.false_or, Bool.false_or] at hexpression
        exact houtermost htext hmiddle hexpression
      · intro hmiddle hother
        rw [hmiddle, hother, Bool.or_false, Bool.or_false] at hexpression
        exact hlast hexpression hmiddle hother

/-- What is checked of three results holds of them. -/
theorem exists_three_of_toOption_any {first second third : Except PatternError Pattern}
    {check : Pattern → Pattern → Pattern → Bool}
    (hcheck : (first.toOption.any fun p => second.toOption.any fun q =>
      third.toOption.any (check p q)) = true) :
    ∃ p q s, first = .ok p ∧ second = .ok q ∧ third = .ok s ∧ check p q s = true := by
  obtain ⟨p, hp, hcheck⟩ := exists_of_toOption_any hcheck
  obtain ⟨q, hq, hcheck⟩ := exists_of_toOption_any hcheck
  obtain ⟨s, hs, hcheck⟩ := exists_of_toOption_any hcheck
  exact ⟨p, q, s, hp, hq, hs, hcheck⟩

/-- A segment of a path behind an expression with two alternatives. -/
theorem join_assoc_alternatives :
    ∃ p q s right left, ofExpression "/v(?P<number>[0-9])|/w" = .ok p ∧
      parse "/\x7bid\x7d" .leading = .ok q ∧ parse "/*" .whole = .ok s ∧
      (join q s >>= join p) = .ok right ∧
      (join p q >>= fun outer => join outer s) = .ok left ∧ right.Alike left := by
  have hcheck : ((ofExpression "/v(?P<number>[0-9])|/w").toOption.any fun p =>
      (parse "/\x7bid\x7d" .leading).toOption.any fun q => (parse "/*" .whole).toOption.any fun s =>
        p.isExpression && p.isWellFormed && q.isWellFormed && s.isWellFormed &&
          (join q s >>= join p).toBool &&
          (join p q >>= fun outer => join outer s).toBool) = true := by decide +kernel
  obtain ⟨p, q, s, hp, hq, hs, hcheck⟩ := exists_three_of_toOption_any hcheck
  simp only [Bool.and_eq_true, toBool_iff] at hcheck
  obtain ⟨⟨⟨⟨⟨hexpression, hfirst⟩, hsecond⟩, hthird⟩, right, hright⟩, left, hleft⟩ := hcheck
  have hmeet : JoinPlainly q s := by
    constructor
    · rw [text_of_parse hq]
      exact fun hmeet => absurd hmeet.1 (by decide +kernel)
    · intro _
      refine ⟨fun hbrace => ?_, fun hbrace => ?_⟩
      · rw [HasStrayBrace, text_of_parse hq] at hbrace
        exact absurd hbrace.1 (by decide +kernel)
      · rw [HasStrayBrace, text_of_parse hs] at hbrace
        exact absurd hbrace.1 (by decide +kernel)
  refine ⟨p, q, s, right, left, hp, hq, hs, hright, hleft, ?_⟩
  rcases join_assoc (.inr ⟨_, hp⟩) (.inl ⟨_, _, hq⟩) (.inl ⟨_, _, hs⟩) hfirst hsecond hthird
    (fun _ _ _ => hmeet) (fun htext => absurd (htext.symm.trans hexpression) nofun) with
    hagree | hsize
  · rw [hright, hleft] at hagree
    cases hagree with
    | ok halike => exact halike
  · rcases hsize.exists_error with ⟨fault, hfault⟩ | ⟨fault, hfault⟩
    · rw [hright] at hfault
      cases hfault
    · rw [hleft] at hfault
      cases hfault

/-- What nests almost to the limit can be joined with one pattern, but not with a second one. -/
theorem join_nested_any {depth : Nat} (hfits : depth + 4 ≤ Regex.nestingLimit)
    (hdeep : Regex.nestingLimit < depth + 6) :
    ∃ p outer, ofExpression (String.ofList (nested depth)) = .ok p ∧ join p any = .ok outer ∧
      ∃ fault, join outer any = .error fault := by
  obtain ⟨e, core, he, _, _, hcore, hdepth, hslash⟩ :=
    exists_ofText_nested (by omega : depth + 2 ≤ Regex.nestingLimit)
  obtain ⟨other, hany, hnames, _, hnode, hflat⟩ := exists_core_any
  have hfree : core.clashes other = false := by simp [Regex.Reading.clashes, hnames]
  have hlevel (outer : Regex.Reading) :
      (outer.joined other).level.depth = 1 + max 1 (1 + outer.level.depth) := by
    rw [Regex.Reading.level_joined, hflat]
  have hlight : (core.joined other).level.node.weight = 64 := by
    rw [Regex.Reading.level_joined, hnode, hslash]
    rfl
  have hroom : 128 ≤ Regex.sizeLimit := by decide
  have honce := hlevel core
  have htwice := hlevel (core.joined other)
  obtain ⟨outer, hjoin, houter, _, hkind⟩ :=
    hcore.exists_join_of_fits hany rfl hfree (by omega) (by omega)
  refine ⟨_, outer, map_eq_ok_iff.mpr ⟨e, he, rfl⟩, hjoin, ?_⟩
  exact houter.join_eq_error_of_deep hany (by rw [hkind]; rfl) (by omega)

/-- Stars that meet, a brace that comes to stand in a template, and what nests almost to the limit
are reasons why it matters which side is joined first. -/
theorem join_not_assoc :
    (∃ p q s right left, ofExpression "/v" = .ok p ∧ parse "*" .leading = .ok q ∧
      parse "*" .whole = .ok s ∧ (join q s >>= join p) = .ok right ∧
      (join p q >>= fun outer => join outer s) = .ok left ∧
      right.accepts "/va/b" = true ∧ left.accepts "/va/b" = false) ∧
    (∃ p q s left, ofExpression "/v" = .ok p ∧ parse "/\x7d" .leading = .ok q ∧
      parse "/\x7bid\x7d" .whole = .ok s ∧
      (∃ fault, (join q s >>= join p) = .error fault) ∧
      (join p q >>= fun outer => join outer s) = .ok left) ∧
    ∃ p right, ofExpression (String.ofList (nested 246)) = .ok p ∧
      (join any any >>= join p) = .ok right ∧
      ∃ fault, (join p any >>= fun outer => join outer any) = .error fault := by
  refine ⟨?_, ?_, ?_⟩
  · have hcheck : ((ofExpression "/v").toOption.any fun p =>
        (parse "*" .leading).toOption.any fun q => (parse "*" .whole).toOption.any fun s =>
          ((join q s >>= join p).toOption.any fun right => right.accepts "/va/b") &&
            (join p q >>= fun outer => join outer s).toOption.any fun left =>
              !left.accepts "/va/b") = true := by decide +kernel
    obtain ⟨p, q, s, hp, hq, hs, hcheck⟩ := exists_three_of_toOption_any hcheck
    obtain ⟨hright, hleft⟩ := Bool.and_eq_true_iff.mp hcheck
    obtain ⟨right, hright, hmatch⟩ := exists_of_toOption_any hright
    obtain ⟨left, hleft, hno⟩ := exists_of_toOption_any hleft
    exact ⟨p, q, s, right, left, hp, hq, hs, hright, hleft, hmatch, by simpa using hno⟩
  · have hcheck : ((ofExpression "/v").toOption.any fun p =>
        (parse "/\x7d" .leading).toOption.any fun q =>
          (parse "/\x7bid\x7d" .whole).toOption.any fun s =>
            !(join q s >>= join p).toBool &&
              (join p q >>= fun outer => join outer s).toBool) = true := by decide +kernel
    obtain ⟨p, q, s, hp, hq, hs, hcheck⟩ := exists_three_of_toOption_any hcheck
    obtain ⟨hright, hleft⟩ := Bool.and_eq_true_iff.mp hcheck
    obtain ⟨left, hleft⟩ := toBool_iff.mp hleft
    exact ⟨p, q, s, left, hp, hq, hs, exists_error_of_toBool (by simpa using hright), hleft⟩
  · obtain ⟨p, outer, hp, houter, fault, hfault⟩ :=
      join_nested_any (by decide : 246 + 4 ≤ Regex.nestingLimit) (by decide)
    refine ⟨p, outer, hp, ?_, fault, ?_⟩
    · rw [parsed_any.join_any]
      exact houter
    · rw [houter]
      exact hfault

end RequestRouting.Pattern
