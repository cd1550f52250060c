import RequestRouting.Proofs.Grammar

/-!
# Violations of the grammar

A text without typed placeholders that is not spelled by grammatical elements has a leftmost
violation: a grammatical front, and behind it something with which no element can start
(`Violation`). The reader of elements fails at the first violation it comes to, with its fault
(`Grammatical.readElements_eq`), and only there (`exists_violation`).
-/

namespace RequestRouting.Pattern.Template

/-- No element of a template can start as the text does. `used` are the names of the placeholders
before, and `last` is the element right before. -/
inductive Violation (used : List (List Char)) (last : Option Element) :
    List Char → PatternFault → Prop
  /-- A brace is closed that has not been opened. -/
  | closing (rest : List Char) : Violation used last ('\x7d' :: rest) .unbalancedBrace
  /-- A brace is opened and not closed. -/
  | unclosed {rest : List Char}
      (hunclosed : ∀ inner after, rest = inner ++ '\x7d' :: after → ¬Balanced inner) :
      Violation used last ('\x7b' :: rest) .unbalancedBrace
  | invalid {inner : List Char} (after : List Char) (hinner : Balanced inner)
      (hname : isIdentifier inner = false) :
      Violation used last ('\x7b' :: (inner ++ '\x7d' :: after))
        (.invalidParameter (String.ofList inner))
  | duplicate {name : List Char} (after : List Char) (hname : isIdentifier name = true)
      (hused : name ∈ used) :
      Violation used last ('\x7b' :: (name ++ '\x7d' :: after))
        (.duplicateParameter (String.ofList name))
  /-- A run of stars has more than two of them. -/
  | stars (rest : List Char) (hlast : ∀ element ∈ last, element.isWildcard = false) :
      Violation used last ('*' :: '*' :: '*' :: rest) .invalidWildcard

variable {taken used : List (List Char)} {last : Option Element} {elements : List Element}
  {text more rest inner after : List Char} {fault : PatternFault}

/-! ## What is refused -/

/-- A violation remains one with more names in use, and behind another element if that is no
wildcard in front of stars. -/
theorem Violation.mono (hviolation : Violation used last rest fault)
    {larger : List (List Char)} (hused : used ⊆ larger) {other : Option Element}
    (hlast : (∀ tail, rest ≠ '*' :: tail) ∨
      ((∀ element ∈ last, element.isWildcard = false) →
        ∀ element ∈ other, element.isWildcard = false)) :
    Violation larger other rest fault := by
  cases hviolation with
  | closing rest => exact .closing rest
  | unclosed hunclosed => exact .unclosed hunclosed
  | invalid after hinner hname => exact .invalid after hinner hname
  | duplicate after hname hmem => exact .duplicate after hname (hused hmem)
  | stars rest hbefore =>
      rcases hlast with hstar | hlast
      · exact absurd rfl (hstar _)
      · exact .stars rest (hlast hbefore)

/-- How a placeholder is read, and what is behind it. -/
theorem readElements_placeholder (hread : readPlaceholder 0 rest = some (inner, after)) :
    readElements taken ('\x7b' :: rest) =
      (placeholder taken inner).bind fun (name, constraint) =>
        (readElements (name :: taken) after).bind fun elements =>
          .ok (.parameter name constraint :: elements) := by
  rw [readElements]
  split
  · rename_i hnone
    cases hread.symm.trans hnone
  · rename_i hsome
    cases hread.symm.trans hsome
    rfl

/-- The reader finds a violation that it has come to. -/
theorem Violation.readElements_eq (hviolation : Violation taken last rest fault)
    (hplain : Unconstrained rest) : readElements taken rest = .error fault := by
  have hopened {inner after : List Char} (hinner : Balanced inner) {fault : PatternFault}
      (hfault : placeholder taken inner = .error fault) :
      readElements taken ('\x7b' :: (inner ++ '\x7d' :: after)) = .error fault := by
    rw [readElements_placeholder (readPlaceholder_eq_some_iff.mpr ⟨rfl, hinner⟩), hfault]
    rfl
  cases hviolation with
  | closing rest => rw [readElements]
  | unclosed hunclosed =>
      rw [readElements]
      split
      · rfl
      · rename_i inner after hsome
        obtain ⟨hrest, hinner⟩ := readPlaceholder_eq_some_iff.mp hsome
        exact absurd hinner (hunclosed inner after hrest)
  | invalid after hinner hname =>
      refine hopened hinner ?_
      rw [placeholder_eq (hplain [] _ _ rfl .nil hinner), if_pos hname]
  | duplicate after hname hused =>
      have hinner := isIdentifier_balanced hname
      refine hopened hinner ?_
      simp [placeholder_eq (hplain [] _ _ rfl .nil hinner), hname, hused]
  | stars rest _ => rw [readElements]

/-- Behind a wildcard no violation starts with a star. -/
theorem Violation.ne_star {element : Element}
    (hviolation : Violation used (some element) rest fault)
    (hwildcard : element.isWildcard = true) (tail : List Char) : rest ≠ '*' :: tail := by
  cases hviolation with
  | closing | unclosed | invalid | duplicate =>
      exact fun heq => absurd (List.cons.inj heq).1 (by decide)
  | stars rest hlast => cases (hlast element rfl).symm.trans hwildcard

theorem readElements_text_append (hplain : text.all isPlain = true)
    (herror : readElements taken more = .error fault) :
    readElements taken (text ++ more) = .error fault := by
  induction text with
  | nil => exact herror
  | cons c text ih =>
      rw [List.all_cons, Bool.and_eq_true] at hplain
      obtain ⟨hc, hplain⟩ := hplain
      obtain ⟨hopen, hclose, hstar⟩ := isPlain_iff.mp hc
      rw [List.cons_append, readElements.eq_7 _ _ _ hopen hclose (fun _ hc => absurd hc hstar)
        (fun _ hc => absurd hc hstar) hstar, ih hplain]
      rfl

/-- The reader gets through a grammatical front, and finds the violation behind it. -/
theorem Grammatical.readElements_eq (helements : Grammatical elements)
    (hnew : ∀ name ∈ namesOf elements, name ∉ taken) (hplain : Unconstrained rest)
    (hviolation : Violation (namesOf elements ++ taken) elements.getLast? rest fault) :
    readElements taken (spell elements ++ rest) = .error fault := by
  induction elements generalizing taken with
  | nil => exact hviolation.readElements_eq hplain
  | cons element elements ih =>
      have hproper := helements.proper element List.mem_cons_self
      have hstar (hwildcard : element.isWildcard = true) (tail : List Char) :
          spell elements ++ rest ≠ '*' :: tail :=
        helements.ne_star hwildcard rest
          (fun hnil => by subst hnil; exact hviolation.ne_star hwildcard) tail
      have hbehind {used : List (List Char)}
          (hused : namesOf (element :: elements) ++ taken ⊆ used) :
          Violation used elements.getLast? rest fault := by
        refine hviolation.mono hused (.inr fun hlast => ?_)
        cases elements with
        | nil => exact nofun
        | cons next elements => exact hlast
      rw [spell_cons]
      match element with
      | .literal text =>
          obtain ⟨_, hplain⟩ := Element.isProper_literal.mp hproper
          exact readElements_text_append hplain
            (ih helements.tail hnew (hbehind (List.Subset.refl _)))
      | .segment =>
          have herror := ih helements.tail hnew (hbehind (List.Subset.refl _))
          rw [Element.spelling, List.singleton_append,
            readElements.eq_6 _ _ (fun tail => hstar rfl _) (hstar rfl), herror]
          rfl
      | .anything =>
          have herror := ih helements.tail hnew (hbehind (List.Subset.refl _))
          rw [Element.spelling, List.cons_append, List.singleton_append,
            readElements.eq_5 _ _ (hstar rfl), herror]
          rfl
      | .parameter name none =>
          have herror : readElements (name :: taken) (spell elements ++ rest) = .error fault :=
            ih helements.tail (helements.names_behind hnew)
              (hbehind List.perm_middle.symm.subset)
          have hown := placeholder_of_isIdentifier hproper (hnew name List.mem_cons_self)
          rw [Element.spelling, List.cons_append, List.cons_append, List.append_assoc,
            List.singleton_append,
            readElements_placeholder (readPlaceholder_of_isIdentifier hproper _), hown]
          change (readElements (name :: taken) _).bind _ = _
          rw [herror]
          rfl
      | .parameter name (some _) => cases hproper

/-! ## Where reading fails -/

theorem eq_error_of_bind {ε α β : Type} {first : Except ε α} {onward : α → β} {failure : ε}
    (herror : first.bind (fun result => .ok (onward result)) = .error failure) :
    first = .error failure := by
  cases first with
  | error _ => exact congrArg Except.error (Except.error.inj herror)
  | ok _ => cases herror

/-- An element in front of a violation is in front of it as well where there are others between. -/
theorem Violation.of_front {front : List Element} {element : Element}
    (hviolation : Violation used front.getLast? rest fault)
    (hstar : front = [] → element.isWildcard = true → ∀ tail, rest ≠ '*' :: tail) :
    Violation used (element :: front).getLast? rest fault := by
  cases front with
  | cons next front => exact hviolation
  | nil =>
      cases hwildcard : element.isWildcard with
      | true => exact hviolation.mono (List.Subset.refl _) (.inl (hstar rfl hwildcard))
      | false =>
          refine hviolation.mono (List.Subset.refl _) (.inr fun _ => ?_)
          rintro _ ⟨⟩
          exact hwildcard

/-- Where reading a text fails, the text violates the grammar behind a grammatical front. -/
theorem exists_violation (herror : readElements taken text = .error fault)
    (hplain : Unconstrained text) :
    ∃ front rest, Grammatical front ∧ (∀ name ∈ namesOf front, name ∉ taken) ∧
      text = spell front ++ rest ∧
      Violation (namesOf front ++ taken) front.getLast? rest fault := by
  fun_induction readElements taken text with
  | case1 => cases herror
  | case2 taken rest hnone =>
      cases herror
      refine ⟨[], _, grammatical_nil, List.forall_mem_nil _, rfl,
        .unclosed fun inner after hrest hinner => ?_⟩
      cases hnone.symm.trans (readPlaceholder_eq_some_iff.mpr ⟨hrest, hinner⟩)
  | case3 taken rest inner after hread _ ih =>
      obtain ⟨rfl, hinner⟩ := readPlaceholder_eq_some_iff.mp hread
      obtain ⟨hcolon, hafter⟩ := hplain.of_placeholder hinner
      rw [placeholder_eq hcolon] at herror
      split_ifs at herror with hname hused
      · cases herror
        exact ⟨[], _, grammatical_nil, List.forall_mem_nil _, rfl, .invalid after hinner hname⟩
      · cases herror
        exact ⟨[], _, grammatical_nil, List.forall_mem_nil _, rfl,
          .duplicate after (by simpa using hname) hused⟩
      · have hlater : readElements (inner :: taken) after = .error fault := eq_error_of_bind herror
        obtain ⟨front, rest, hfront, hnew, rfl, hviolation⟩ := ih inner hlater hafter
        refine ⟨.parameter inner none :: front, rest,
          .cons_parameter (by simpa using hname) ?_ hfront, ?_, ?_, ?_⟩
        · exact fun hmem => hnew _ hmem List.mem_cons_self
        · exact List.forall_mem_cons.mpr
            ⟨hused, fun name hmem hold => hnew name hmem (.tail _ hold)⟩
        · simp [spell, Element.spelling]
        · exact (hviolation.of_front (fun _ hwildcard => by cases hwildcard)).mono
            List.perm_middle.subset (.inr id)
  | case4 taken rest =>
      cases herror
      exact ⟨[], _, grammatical_nil, List.forall_mem_nil _, rfl, .closing rest⟩
  | case5 taken rest =>
      cases herror
      exact ⟨[], _, grammatical_nil, List.forall_mem_nil _, rfl, .stars rest (by simp)⟩
  | case6 taken rest hstar ih =>
      have hlater := eq_error_of_bind herror
      obtain ⟨front, rest, hfront, hnew, rfl, hviolation⟩ :=
        ih hlater (balanced_stars.unconstrained hplain)
      refine ⟨.anything :: front, rest, .cons_wildcard rfl _ hstar hfront, hnew,
        rfl, hviolation.of_front ?_⟩
      rintro rfl _
      exact hstar
  | case7 taken rest _ hstar ih =>
      have hlater := eq_error_of_bind herror
      obtain ⟨front, rest, hfront, hnew, rfl, hviolation⟩ :=
        ih hlater (balanced_star.unconstrained hplain)
      refine ⟨.segment :: front, rest, .cons_wildcard rfl _ hstar hfront, hnew,
        rfl, hviolation.of_front ?_⟩
      rintro rfl _
      exact hstar
  | case8 taken c rest hopen hclose _ _ hstar ih =>
      have hlater := eq_error_of_bind herror
      obtain ⟨front, rest, hfront, hnew, rfl, hviolation⟩ :=
        ih hlater ((balanced_singleton hopen hclose).unconstrained hplain)
      have hc := isPlain_iff.mpr ⟨hopen, hclose, hstar⟩
      refine ⟨consLiteral c front, rest, hfront.consLiteral hc, ?_, ?_, ?_⟩
      · rwa [namesOf_consLiteral]
      · rw [spell_consLiteral, List.cons_append]
      · rw [namesOf_consLiteral]
        rcases front with _ | ⟨text | _ | _ | _, front⟩
        · exact hviolation.of_front fun _ hwildcard => by cases hwildcard
        · refine hviolation.mono (List.Subset.refl _) (.inr fun hlast => ?_)
          cases front with
          | nil =>
              rintro _ ⟨⟩
              rfl
          | cons next front => exact hlast
        all_goals exact hviolation.of_front fun hnil => absurd hnil (List.cons_ne_nil _ _)

end RequestRouting.Pattern.Template
