import RequestRouting.Proofs.JoinedSplits
import RequestRouting.Proofs.Violations

/-!
# Templates and their grammar

The reader of templates decides their grammar (`ofText_decides_grammar`): it accepts what
grammatical elements spell, and refuses other text with the fault of the leftmost violation. A text
that follows the grammar is refused in one case only, where its expression is too large
(`grammatical_text_refused`).
-/

namespace RequestRouting.Pattern.Template

variable {elements : List Element}

/-! ## Sizes -/

/-- The size of the expression that a template without typed placeholders is compiled to: that of
the automaton that reads backward, which is the larger one. -/
def expressionSize (elements : List Element) (extent : Extent) : Nat :=
  max 32 (elementsSize .backward elements) + if extent = .whole then 64 else 32

theorem Grammatical.isUntyped (helements : Grammatical elements) :
    elements.all Element.isUntyped = true := by
  refine List.all_eq_true.mpr fun element hmem => ?_
  have hproper := helements.proper element hmem
  match element with
  | .literal _ | .segment | .anything | .parameter _ none => rfl
  | .parameter _ (some _) => cases hproper

open Regex (sequence readingOf enclosed)

theorem elementsSize_forward_le (elements : List Element) :
    elementsSize .forward elements ≤ elementsSize .backward elements := by
  induction elements with
  | nil => exact Nat.le_refl _
  | cons element elements ih =>
      have hfirst : element.size .forward ≤ element.size .backward := by
        cases element with
        | literal text => exact Nat.le_refl _
        | segment | anything | parameter _ _ => exact (by decide : 528 ≤ 1040)
      exact Nat.add_le_add hfirst ih

theorem weight_enclosed_eq (elements : List Element) (extent : Extent) :
    (enclosed (sequence (readingOf elements).pieces) extent).node.weight =
      expressionSize elements extent := by
  have hsize (d : Regex.Direction) : (sequence (readingOf elements).pieces).node.size d =
      max 32 (elementsSize d elements) := by
    rw [Regex.size_sequence fun piece hmem => (Regex.flat_readingOf elements piece hmem).light,
      Regex.totalSize_readingOf]
  have hforward := elementsSize_forward_le elements
  rw [Regex.weight_enclosed, Regex.weight, hsize, hsize, expressionSize]
  omega

/-- Whether the expression of grammatical elements is accepted is a matter of its size. -/
theorem Grammatical.readChars?_eq (helements : Grammatical elements) (extent : Extent) :
    Regex.readChars? (Expression.anchored (bodyOf elements) extent) =
      if expressionSize elements extent ≤ Regex.sizeLimit then
        some (enclosed (sequence (readingOf elements).pieces) extent).node
      else none := by
  have hreads : Reads [] (spell elements) elements := helements.reads fun _ _ => List.not_mem_nil
  refine Option.ext fun regex => ?_
  rw [hreads.readChars?_eq_some_iff helements.isUntyped, weight_enclosed_eq]
  split <;> simp_all

/-! ## What a template has -/

theorem length_captured (elements : List Element) :
    (captured elements (elements.map fun _ => [])).length = elements.countP Element.captures := by
  induction elements with
  | nil => rfl
  | cons element elements ih =>
      rw [List.map_cons, captured_cons, List.countP_cons, ← ih]
      split <;> simp_all

/-- The groups are those of the elements that capture, with the names of the placeholders. -/
theorem parameters_and_groupCount (elements : List Element) (extent : Extent) :
    (enclosed (sequence (readingOf elements).pieces) extent).node.names =
        (namesOf elements).map String.ofList ∧
      (enclosed (sequence (readingOf elements).pieces) extent).node.groupCount =
        elements.countP Element.captures := by
  have hgroups : (enclosed (sequence (readingOf elements).pieces) extent).node.groups =
      (readingOf elements).pieces.reverse.flatMap (·.node.groups) := by
    rw [Regex.groups_enclosed, Regex.groups_sequence (Regex.directive_readingOf _)]
  constructor
  · rw [Regex.names, hgroups]
    exact names_foldl_after elements Regex.Reading.opened
  · have hlength : elements.length = (elements.map fun _ => ([] : List Char)).length :=
      (List.length_map _).symm
    have hnumbered := groups_foldl_after hlength Regex.Reading.opened
    rw [Regex.groupCount, hgroups, readingOf, hnumbered, ← length_captured]
    have hhighest := highest_zipIdx (captured elements (elements.map fun _ => []))
      (fun entry => entry.1.name?.map String.ofList) 0
    exact hhighest.trans (Nat.zero_add _)

/-! ## Templates -/

theorem opens_iff (text : List Char) : Opens text ↔ opensProperly text = true := by
  cases text <;> simp [Opens, opensProperly]

/-- Why template text is refused. -/
inductive Refused (text : List Char) (extent : Extent) : PatternFault → Prop
  | opening (hopens : ¬Opens text) : Refused text extent (.invalidOpening .slashOrStar)
  | violation {front : List Element} {rest : List Char} {fault : PatternFault} (hopens : Opens text)
      (hfront : Grammatical front) (htext : text = spell front ++ rest)
      (hviolation : Violation (namesOf front) front.getLast? rest fault) :
      Refused text extent fault
  | oversized {elements : List Element} (hopens : Opens text) (helements : Grammatical elements)
      (htext : text = spell elements) (hsize : Regex.sizeLimit < expressionSize elements extent) :
      Refused text extent .invalidExpression

theorem ofText_eq_error_iff {text : String} {extent : Extent} {e : PatternError} :
    ofText text extent = .error e ↔ e.pattern = text ∧
      (opensProperly text.toList = false ∧ e.fault = .invalidOpening .slashOrStar ∨
        opensProperly text.toList = true ∧
          (readElements [] text.toList = .error e.fault ∨
            ∃ elements, readElements [] text.toList = .ok elements ∧
              Regex.readChars? (Expression.anchored (bodyOf elements) extent) = none ∧
              e.fault = .invalidExpression)) := by
  obtain ⟨pattern, fault⟩ := e
  have herror (own : PatternFault) :
      (Except.error ⟨text, own⟩ : Except PatternError Template) = .error ⟨pattern, fault⟩ ↔
        pattern = text ∧ own = fault := by
    rw [Except.error.injEq, PatternError.mk.injEq, eq_comm]
  cases hopens : opensProperly text.toList with
  | false => simp [ofText, hopens, herror, eq_comm]
  | true =>
      cases hread : readElements [] text.toList with
      | error own => simp [ofText, hopens, hread, herror]
      | ok elements =>
          rw [ofText_eq_of_readElements hopens hread]
          cases hregex : Regex.readChars? (Expression.anchored (bodyOf elements) extent) with
          | none => simp [herror, hregex, eq_comm]
          | some regex => simp [hregex]

theorem Grammatical.readElements_eq_ok {elements : List Element} (helements : Grammatical elements)
    {text : List Char} (htext : text = spell elements) : readElements [] text = .ok elements := by
  rw [htext]
  exact (helements.reads fun _ _ => List.not_mem_nil).readElements_eq

section Decides

variable {text : String} {extent : Extent} {elements : List Element}

theorem grammatical_of_readElements (hplain : Unconstrained text.toList)
    (hread : readElements [] text.toList = .ok elements) :
    Grammatical elements ∧ text.toList = spell elements :=
  ⟨(reads_of_readElements hread).grammatical hplain, (reads_of_readElements hread).spelled.symm⟩

/-- The texts that are accepted. -/
theorem exists_ofText_iff (hplain : Unconstrained text.toList) :
    (∃ t, ofText text extent = .ok t) ↔
      Opens text.toList ∧ ∃ elements, Grammatical elements ∧ text.toList = spell elements ∧
        expressionSize elements extent ≤ Regex.sizeLimit := by
  constructor
  · rintro ⟨t, ht⟩
    obtain ⟨hopens, elements, hread, regex, hregex, rfl⟩ := Template.ofText_eq_ok_iff.mp ht
    obtain ⟨helements, htext⟩ := grammatical_of_readElements hplain hread
    refine ⟨(opens_iff _).mpr hopens, elements, helements, htext, ?_⟩
    rw [helements.readChars?_eq] at hregex
    split_ifs at hregex with hsize
    exact hsize
  · rintro ⟨hopens, elements, helements, htext, hsize⟩
    exact ⟨_, Template.ofText_eq_ok_iff.mpr ⟨(opens_iff _).mp hopens, elements,
      helements.readElements_eq_ok htext, _,
      (helements.readChars?_eq extent).trans (if_pos hsize), rfl⟩⟩

theorem refused_of_ofText {e : PatternError} (hplain : Unconstrained text.toList)
    (herror : ofText text extent = .error e) : Refused text.toList extent e.fault := by
  obtain ⟨_, ⟨hopens, hfault⟩ | ⟨hopens, hread | ⟨elements, hread, hnone, hfault⟩⟩⟩ :=
    ofText_eq_error_iff.mp herror
  · rw [hfault]
    exact .opening fun h => by rw [(opens_iff _).mp h] at hopens; cases hopens
  · obtain ⟨front, rest, hfront, _, htext, hviolation⟩ := exists_violation hread hplain
    rw [List.append_nil] at hviolation
    exact .violation ((opens_iff _).mpr hopens) hfront htext hviolation
  · obtain ⟨helements, htext⟩ := grammatical_of_readElements hplain hread
    rw [hfault]
    refine .oversized ((opens_iff _).mpr hopens) helements htext ?_
    refine Nat.lt_of_not_le fun hsize => ?_
    cases hnone.symm.trans ((helements.readChars?_eq extent).trans (if_pos hsize))

theorem Refused.ofText_eq_error {fault : PatternFault} (hrefused : Refused text.toList extent fault)
    (hplain : Unconstrained text.toList) : ofText text extent = .error ⟨text, fault⟩ := by
  refine ofText_eq_error_iff.mpr ⟨rfl, ?_⟩
  cases hrefused with
  | opening hopens => exact .inl ⟨by rwa [opens_iff, Bool.not_eq_true] at hopens, rfl⟩
  | @violation front rest _ hopens hfront htext hviolation =>
      refine .inr ⟨(opens_iff _).mp hopens, .inl ?_⟩
      rw [htext]
      refine hfront.readElements_eq (fun _ _ => List.not_mem_nil) ?_ (by rwa [List.append_nil])
      rw [htext] at hplain
      exact hfront.balanced_spell.unconstrained hplain
  | @oversized elements hopens helements htext hsize =>
      refine .inr ⟨(opens_iff _).mp hopens,
        .inr ⟨elements, helements.readElements_eq_ok htext, ?_, rfl⟩⟩
      rw [helements.readChars?_eq, if_neg (Nat.not_le_of_lt hsize)]

/-- What an accepted text has. -/
theorem parameters_and_groupCount_of_ofText {t : Template} (ht : ofText text extent = .ok t)
    (helements : Grammatical elements) (htext : text.toList = spell elements) :
    t.expression.parameters = (namesOf elements).map String.ofList ∧
      t.expression.groupCount = elements.countP Element.captures := by
  obtain ⟨_, same, hread, regex, hregex, rfl⟩ := Template.ofText_eq_ok_iff.mp ht
  obtain rfl := Except.ok.inj (hread.symm.trans (helements.readElements_eq_ok htext))
  rw [helements.readChars?_eq] at hregex
  split_ifs at hregex with hsize
  obtain rfl := Option.some.inj hregex
  exact parameters_and_groupCount same extent

end Decides

/-- The reader of templates decides the grammar. It accepts the text that opens properly and is
spelled by grammatical elements, unless their expression is too large. Other text it refuses with
the fault of the leftmost violation. A template has the names of its placeholders in order, and one
group for each placeholder and each run of stars. -/
theorem ofText_decides_grammar (text : String) (extent : Extent)
    (hplain : Unconstrained text.toList) :
    ((∃ t, ofText text extent = .ok t) ↔
      Opens text.toList ∧ ∃ elements, Grammatical elements ∧ text.toList = spell elements ∧
        expressionSize elements extent ≤ Regex.sizeLimit) ∧
    (∀ e, ofText text extent = .error e ↔
      e.pattern = text ∧ Refused text.toList extent e.fault) ∧
    ∀ t, ofText text extent = .ok t → ∀ elements, Grammatical elements →
      text.toList = spell elements →
        t.expression.parameters = (namesOf elements).map String.ofList ∧
          t.expression.groupCount = elements.countP Element.captures := by
  refine ⟨exists_ofText_iff hplain, fun e => ⟨fun herror => ?_, ?_⟩, fun t ht elements => ?_⟩
  · exact ⟨(ofText_eq_error_iff.mp herror).1, refused_of_ofText hplain herror⟩
  · obtain ⟨pattern, fault⟩ := e
    rintro ⟨rfl, hrefused⟩
    exact hrefused.ofText_eq_error hplain
  · exact parameters_and_groupCount_of_ofText ht

/-- The name of a section is the one parameter of this template, and the run of stars its second
group. The same name twice is refused. -/
theorem grammar_of_sections :
    (∃ t, ofText "/\x7bsection\x7d/**" .leading = .ok t ∧
      t.expression.parameters = ["section"] ∧ t.expression.groupCount = 2) ∧
    ofText "/\x7bid\x7d/\x7bid\x7d" .whole =
      .error ⟨"/\x7bid\x7d/\x7bid\x7d", .duplicateParameter "id"⟩ := by
  have hslash : (Element.literal ['/']).isProper = true := by decide
  -- A placeholder between two slashes, in front of no text.
  have hbetween {name : List Char} (hname : isIdentifier name = true) {later : List Element}
      (hlater : Grammatical later) (hfirst : ∀ next ∈ later.head?, next.captures = true)
      (hnew : name ∉ namesOf later) :
      Grammatical (.literal ['/'] :: .parameter name none :: .literal ['/'] :: later) := by
    have hsecond : Grammatical (.literal ['/'] :: later) :=
      .cons hslash (fun next hnext => ⟨hfirst next hnext, rfl⟩) nofun hlater
    have hplaceholder : Grammatical (.parameter name none :: .literal ['/'] :: later) :=
      .cons hname (fun _ _ => ⟨rfl, rfl⟩) (by rintro _ ⟨⟩; exact hnew) hsecond
    exact .cons hslash (by rintro _ ⟨⟩; exact ⟨rfl, rfl⟩) nofun hplaceholder
  constructor
  · have hplain : Unconstrained "/\x7bsection\x7d/**".toList :=
      unconstrained_of_not_mem (by decide)
    have helements : Grammatical
        [.literal ['/'], .parameter "section".toList none, .literal ['/'], .anything] :=
      hbetween (by decide) (.cons rfl nofun nofun grammatical_nil) (by rintro _ ⟨⟩; rfl) nofun
    have htext : "/\x7bsection\x7d/**".toList =
        spell [.literal ['/'], .parameter "section".toList none, .literal ['/'], .anything] := by
      decide +kernel
    obtain ⟨haccepted, _, hhas⟩ := ofText_decides_grammar _ .leading hplain
    obtain ⟨t, ht⟩ := haccepted.mpr ⟨by simp [Opens], _, helements, htext, by decide +kernel⟩
    obtain ⟨hnames, hcount⟩ := hhas t ht _ helements htext
    exact ⟨t, ht, hnames.trans (by decide +kernel), hcount⟩
  · have hplain : Unconstrained "/\x7bid\x7d/\x7bid\x7d".toList :=
      unconstrained_of_not_mem (by decide)
    have hfront : Grammatical [.literal ['/'], .parameter "id".toList none, .literal ['/']] :=
      hbetween (by decide) grammatical_nil nofun nofun
    have hviolation : Violation ["id".toList] (some (.literal ['/']))
        ('\x7b' :: ("id".toList ++ ['\x7d'])) (.duplicateParameter (String.ofList "id".toList)) :=
      .duplicate [] (by decide) (by decide)
    rw [String.ofList_toList] at hviolation
    obtain ⟨_, hrefused, _⟩ := ofText_decides_grammar _ .whole hplain
    exact (hrefused _).mpr
      ⟨rfl, .violation (by simp [Opens]) hfront (by decide +kernel) hviolation⟩

/-! ## A text that is too large -/

/-- Runs of stars with slashes between them. -/
def starRuns (n : Nat) : List Element := (List.replicate n [.anything, .literal ['/']]).flatten

theorem starRuns_succ (n : Nat) : starRuns (n + 1) = .anything :: .literal ['/'] :: starRuns n := by
  rw [starRuns, List.replicate_succ, List.flatten_cons]
  rfl

theorem grammatical_starRuns (n : Nat) : Grammatical (starRuns n) := by
  induction n with
  | zero => exact grammatical_nil
  | succ n ih =>
      rw [starRuns_succ]
      refine .cons rfl ?_ nofun (.cons (by decide) ?_ nofun ih)
      · rintro _ ⟨⟩
        exact ⟨rfl, rfl⟩
      · cases n with
        | zero => exact nofun
        | succ n =>
            rw [starRuns_succ]
            rintro _ ⟨⟩
            exact ⟨rfl, rfl⟩

theorem spell_starRuns (n : Nat) :
    spell (starRuns n) = (List.replicate n ['*', '*', '/']).flatten := by
  induction n with
  | zero => rfl
  | succ n ih =>
      rw [starRuns_succ, List.replicate_succ, List.flatten_cons, ← ih]
      rfl

theorem le_expressionSize_starRuns (n : Nat) (extent : Extent) :
    1072 * n < expressionSize (starRuns n) extent := by
  have hsum : elementsSize .backward (starRuns n) = 1072 * n := by
    induction n with
    | zero => rfl
    | succ n ih =>
        rw [starRuns_succ, elementsSize_cons, elementsSize_cons, ih]
        have hliteral : (Element.literal ['/']).size .backward = 32 := by decide
        have hanything : Element.anything.size .backward = 1040 := rfl
        omega
  rw [expressionSize, hsum]
  split <;> omega

theorem starRuns_refused {n : Nat} (hsize : Regex.sizeLimit ≤ 1072 * n) {text : String}
    (htext : text.toList = (List.replicate n ['*', '*', '/']).flatten) (extent : Extent) :
    Unconstrained text.toList ∧ Opens text.toList ∧
      (∃ elements, Grammatical elements ∧ text.toList = spell elements) ∧
      ofText text extent = .error ⟨text, .invalidExpression⟩ := by
  have helements := grammatical_starRuns n
  have hspelled : text.toList = spell (starRuns n) := htext.trans (spell_starRuns n).symm
  have hplain : Unconstrained text.toList := by
    refine unconstrained_of_not_mem fun hmem => ?_
    rw [htext, List.mem_flatten] at hmem
    obtain ⟨piece, hpiece, hmem⟩ := hmem
    rw [List.eq_of_mem_replicate hpiece] at hmem
    exact absurd hmem (by decide)
  have hopens : Opens text.toList := by
    rw [htext]
    cases n with
    | zero => simp [Opens]
    | succ n => simp [Opens, List.replicate_succ]
  refine ⟨hplain, hopens, ⟨_, helements, hspelled⟩, ?_⟩
  rw [ofText_eq_of_readElements ((opens_iff _).mp hopens)
    (helements.readElements_eq_ok hspelled), helements.readChars?_eq, if_neg]
  exact Nat.not_le_of_lt (Nat.lt_of_le_of_lt hsize (le_expressionSize_starRuns n extent))

/-- A text that follows the grammar and is refused, as its expression is too large. -/
theorem grammatical_text_refused :
    Unconstrained (String.ofList (List.replicate 40000 ['*', '*', '/']).flatten).toList ∧
      Opens (String.ofList (List.replicate 40000 ['*', '*', '/']).flatten).toList ∧
      (∃ elements, Grammatical elements ∧
        (String.ofList (List.replicate 40000 ['*', '*', '/']).flatten).toList = spell elements) ∧
      ofText (String.ofList (List.replicate 40000 ['*', '*', '/']).flatten) .whole =
        .error ⟨String.ofList (List.replicate 40000 ['*', '*', '/']).flatten, .invalidExpression⟩ :=
  starRuns_refused (by decide) String.toList_ofList .whole

end RequestRouting.Pattern.Template
