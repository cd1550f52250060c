import RequestRouting.Proofs.Mounting

/-!
# Templates from joined texts

What the elements of a template are, said once: `Reads` has a rule for each element, and
holds of a text and its elements if and only if reading the text gives these elements
(`readElements_eq_ok_iff`). From the rules follows what comes of a text that is read in two
parts (`Reads.of_append`): the elements of the second part come behind those of the first,
and at the joint two literals become one, and so do two stars.
-/

namespace RequestRouting.Pattern.Template

/-! ## Elements -/

/-- The element is no placeholder with an expression of its own. -/
def Element.isUntyped : Element → Bool
  | parameter _ (some _) => false
  | literal _ | segment | anything | parameter _ none => true

/-- The name of the element, if it is a placeholder. -/
def Element.name? : Element → Option (List Char)
  | parameter name _ => some name
  | literal _ | segment | anything => none

/-- The names of the placeholders in order. -/
def namesOf (elements : List Element) : List (List Char) := elements.filterMap Element.name?

/-- An element in front of the elements of a text that comes behind its own. -/
def Element.meet : Element → List Element → List Element
  | literal text, literal more :: later => literal (text ++ more) :: later
  | segment, segment :: later => anything :: later
  | element, later => element :: later

/-- The elements of one text in front of those of another one. -/
def meet : List Element → List Element → List Element
  | [], later => later
  | [element], later => element.meet later
  | element :: next :: earlier, later => element :: meet (next :: earlier) later

/-- The first text ends in a star and the second one starts with a star. -/
def Touch (earlier later : List Element) : Prop :=
  earlier.getLast? = some .segment ∧ later.head? = some .segment

theorem namesOf_consLiteral (c : Char) (elements : List Element) :
    namesOf (consLiteral c elements) = namesOf elements := by
  unfold consLiteral
  split <;> rfl

theorem bodyOf_cons_append (element : Element) (elements : List Element) (rest : List Char) :
    bodyOf (element :: elements) ++ rest = element.body ++ (bodyOf elements ++ rest) := by
  simp [bodyOf]

/-- A character in front of a text goes into the first literal, wherever the text ends. -/
theorem meet_consLiteral (c : Char) (earlier later : List Element) :
    meet (consLiteral c earlier) later = consLiteral c (meet earlier later) := by
  rcases earlier with _ | ⟨_ | _, _ | _⟩ <;> rcases later with _ | ⟨_ | _, _⟩ <;> rfl

theorem meet_cons_of_ne_nil {element : Element} {earlier later : List Element}
    (hne : earlier ≠ []) : meet (element :: earlier) later = element :: meet earlier later := by
  cases earlier with
  | nil => exact absurd rfl hne
  | cons next earlier => rfl

theorem meet_cons_parameter (name : List Char) (constraint : Option (List Char))
    (earlier later : List Element) :
    meet (.parameter name constraint :: earlier) later =
      .parameter name constraint :: meet earlier later := by
  cases earlier <;> rfl

theorem meet_cons_anything (earlier later : List Element) :
    meet (.anything :: earlier) later = .anything :: meet earlier later := by
  cases earlier <;> rfl

theorem escape_append (first second : List Char) :
    Regex.escape (first ++ second) = Regex.escape first ++ Regex.escape second := by
  induction first with
  | nil => rfl
  | cons c first ih =>
      simp only [List.cons_append, Regex.escape, ih]
      split <;> rfl

theorem namesOf_meet (earlier later : List Element) :
    namesOf (meet earlier later) = namesOf earlier ++ namesOf later := by
  fun_induction meet earlier later with
  | case1 => rfl
  | case2 element later =>
      unfold Element.meet
      split
      · rfl
      · rfl
      · exact (List.filterMap_append : namesOf ([element] ++ later) = _)
  | case3 element next earlier later ih =>
      simp only [namesOf, List.filterMap_cons] at ih ⊢
      rw [ih]
      cases element <;> rfl

theorem all_isUntyped_meet (earlier later : List Element) :
    (meet earlier later).all Element.isUntyped =
      (earlier.all Element.isUntyped && later.all Element.isUntyped) := by
  fun_induction meet earlier later with
  | case1 => rfl
  | case2 element later =>
      unfold Element.meet
      split <;> simp [Element.isUntyped]
  | case3 element next earlier later ih => simp [ih, Bool.and_assoc]

/-- Where no two stars come together, the expressions come one after the other. -/
theorem bodyOf_meet {earlier later : List Element} (hapart : ¬Touch earlier later) :
    bodyOf (meet earlier later) = bodyOf earlier ++ bodyOf later := by
  fun_induction meet earlier later with
  | case1 => rfl
  | case2 element later =>
      unfold Element.meet
      split
      · simp [bodyOf, Element.body, escape_append]
      · exact absurd ⟨rfl, rfl⟩ hapart
      · simp [bodyOf]
  | case3 element next earlier later ih =>
      have hlater : ¬Touch (next :: earlier) later := fun htouch =>
        hapart (by simpa [Touch] using htouch)
      have hbody := ih hlater
      simp only [bodyOf, List.flatMap_cons, List.append_assoc] at hbody ⊢
      rw [hbody]

/-- Where two stars come together, they become one element. -/
theorem exists_of_touch {earlier later : List Element} (htouch : Touch earlier later) :
    ∃ front back, earlier = front ++ [.segment] ∧ later = .segment :: back ∧
      meet earlier later = front ++ .anything :: back := by
  obtain ⟨hlast, hfirst⟩ := htouch
  obtain ⟨back, rfl⟩ := List.head?_eq_some_iff.mp hfirst
  obtain ⟨front, rfl⟩ := List.getLast?_eq_some_iff.mp hlast
  refine ⟨front, back, rfl, rfl, ?_⟩
  induction front with
  | nil => rfl
  | cons element front ih =>
      rw [List.cons_append, meet_cons_of_ne_nil (by simp), ih (by simp)]
      rfl

/-! ## Reading -/

/-- How a text is read into its elements, where the names `taken` have been used before. -/
inductive Reads : List (List Char) → List Char → List Element → Prop
  | nil {taken : List (List Char)} : Reads taken [] []
  | parameter {taken : List (List Char)} {rest inner after name : List Char}
      {constraint : Option (List Char)} {later : List Element}
      (hinner : readPlaceholder 0 rest = some (inner, after))
      (hname : placeholder taken inner = .ok (name, constraint))
      (hlater : Reads (name :: taken) after later) :
      Reads taken ('\x7b' :: rest) (.parameter name constraint :: later)
  | anything {taken : List (List Char)} {rest : List Char} {later : List Element}
      (hstar : ∀ tail, rest ≠ '*' :: tail) (hlater : Reads taken rest later) :
      Reads taken ('*' :: '*' :: rest) (.anything :: later)
  | segment {taken : List (List Char)} {rest : List Char} {later : List Element}
      (hstar : ∀ tail, rest ≠ '*' :: tail) (hlater : Reads taken rest later) :
      Reads taken ('*' :: rest) (.segment :: later)
  | literal {taken : List (List Char)} {c : Char} {rest : List Char} {later : List Element}
      (hopen : c ≠ '\x7b') (hclose : c ≠ '\x7d') (hstar : c ≠ '*')
      (hlater : Reads taken rest later) : Reads taken (c :: rest) (consLiteral c later)

section Reads

variable {taken : List (List Char)} {text : List Char} {elements : List Element}

theorem reads_of_readElements (hread : readElements taken text = .ok elements) :
    Reads taken text elements := by
  fun_induction readElements taken text generalizing elements with
  | case1 =>
      cases hread
      exact .nil
  | case2 | case4 | case5 => cases hread
  | case3 taken rest inner after hinner _ ih =>
      obtain ⟨⟨name, constraint⟩, hname, hread⟩ := bind_eq_ok_iff.mp hread
      obtain ⟨later, hlater, hread⟩ := bind_eq_ok_iff.mp hread
      cases hread
      exact .parameter hinner hname (ih name hlater)
  | case6 taken rest hstar ih =>
      obtain ⟨later, hlater, hread⟩ := bind_eq_ok_iff.mp hread
      cases hread
      exact .anything hstar (ih hlater)
  | case7 taken rest _ hstar ih =>
      obtain ⟨later, hlater, hread⟩ := bind_eq_ok_iff.mp hread
      cases hread
      exact .segment hstar (ih hlater)
  | case8 taken c rest hopen hclose _ _ hstar ih =>
      obtain ⟨later, hlater, hread⟩ := bind_eq_ok_iff.mp hread
      cases hread
      exact .literal hopen hclose hstar (ih hlater)

theorem Reads.readElements_eq (hreads : Reads taken text elements) :
    readElements taken text = .ok elements := by
  induction hreads with
  | nil => exact readElements.eq_1 _
  | @parameter taken rest inner after name constraint later hinner hname _ ih =>
      rw [readElements]
      split
      · rename_i hnone
        rw [hinner] at hnone
        cases hnone
      · rename_i inner' after' hsome
        rw [hinner] at hsome
        cases hsome
        simp only [hname, ih, bind, Except.bind]
  | anything hstar _ ih =>
      rw [readElements.eq_5 _ _ hstar, ih]
      rfl
  | segment hstar _ ih =>
      rw [readElements.eq_6 _ _ (fun tail => hstar _) hstar, ih]
      rfl
  | literal hopen hclose hstar _ ih =>
      rw [readElements.eq_7 _ _ _ hopen hclose (fun _ hc => absurd hc hstar)
        (fun _ hc => absurd hc hstar) hstar, ih]
      rfl

theorem placeholder_eq_ok_iff {inner name : List Char} {constraint : Option (List Char)} :
    placeholder taken inner = .ok (name, constraint) ↔
      splitConstraint inner = (name, constraint) ∧ isIdentifier name = true ∧
        constraint ≠ some [] ∧ name ∉ taken := by
  unfold placeholder
  obtain ⟨given, own⟩ := splitConstraint inner
  by_cases hname : isIdentifier given = true <;> by_cases hown : own = some [] <;>
    by_cases htaken : given ∈ taken <;> grind

namespace Reads

/-- Fewer names in use are no hindrance. -/
theorem mono {fewer : List (List Char)} (hfewer : fewer ⊆ taken)
    (hreads : Reads taken text elements) : Reads fewer text elements := by
  induction hreads generalizing fewer with
  | nil => exact .nil
  | parameter hinner hname _ ih =>
      obtain ⟨hsplit, hidentifier, hconstraint, hnew⟩ := placeholder_eq_ok_iff.mp hname
      have hstill := fun hmem => hnew (hfewer hmem)
      exact .parameter hinner
        (placeholder_eq_ok_iff.mpr ⟨hsplit, hidentifier, hconstraint, hstill⟩)
        (ih (List.cons_subset_cons _ hfewer))
  | anything hstar _ ih => exact .anything hstar (ih hfewer)
  | segment hstar _ ih => exact .segment hstar (ih hfewer)
  | literal hopen hclose hstar _ ih => exact .literal hopen hclose hstar (ih hfewer)

/-- The names are identifiers, and none is used twice. -/
theorem names (hreads : Reads taken text elements) :
    (namesOf elements).Nodup ∧
      ∀ name ∈ namesOf elements, isIdentifier name = true ∧ name ∉ taken := by
  induction hreads with
  | nil => exact ⟨.nil, nofun⟩
  | parameter hinner hname _ ih =>
      obtain ⟨_, hidentifier, _, hnew⟩ := placeholder_eq_ok_iff.mp hname
      obtain ⟨hnodup, hlater⟩ := ih
      refine ⟨List.nodup_cons.mpr ⟨fun hmem => ?_, hnodup⟩, ?_⟩
      · exact (hlater _ hmem).2 List.mem_cons_self
      · rintro name (_ | ⟨_, hmem⟩)
        · exact ⟨hidentifier, hnew⟩
        · exact ⟨(hlater name hmem).1, fun hold => (hlater name hmem).2 (.tail _ hold)⟩
  | anything _ _ ih | segment _ _ ih => exact ih
  | literal _ _ _ _ ih => rwa [namesOf_consLiteral]

end Reads

/-! ## Texts in two parts -/

variable {more : List Char}

theorem eq_append_of_readPlaceholder {depth : Nat} {inner after : List Char}
    (hread : readPlaceholder depth text = some (inner, after)) :
    text = inner ++ '\x7d' :: after := by
  fun_induction readPlaceholder depth text generalizing inner after with
  | case1 => cases hread
  | case3 rest => cases hread; rfl
  | case2 depth rest ih | case4 rest depth ih | case5 depth c rest _ _ ih =>
      obtain ⟨_, hrest, hpair⟩ := Option.map_eq_some_iff.mp hread
      cases hpair
      rw [ih hrest, List.cons_append]

theorem readPlaceholder_append {depth : Nat} {inner after : List Char}
    (hread : readPlaceholder depth text = some (inner, after)) :
    readPlaceholder depth (text ++ more) = some (inner, after ++ more) := by
  fun_induction readPlaceholder depth text generalizing inner after with
  | case1 => cases hread
  | case3 rest => cases hread; rfl
  | case2 depth rest ih | case4 rest depth ih =>
      obtain ⟨_, hrest, hpair⟩ := Option.map_eq_some_iff.mp hread
      cases hpair
      simp [readPlaceholder, ih hrest]
  | case5 depth c rest hopen hclose ih =>
      obtain ⟨_, hrest, hpair⟩ := Option.map_eq_some_iff.mp hread
      cases hpair
      simp [readPlaceholder, ih hrest]

theorem Reads.ne_nil {c : Char} (hreads : Reads taken (c :: text) elements) : elements ≠ [] := by
  cases hreads with
  | parameter | anything | segment => exact List.cons_ne_nil _ _
  | literal =>
      unfold consLiteral
      split <;> exact List.cons_ne_nil _ _

theorem Reads.eq_star {later : List Element} (hreads : Reads taken text (.segment :: later)) :
    ∃ rest, text = '*' :: rest := by
  generalize helements : Element.segment :: later = elements at hreads
  cases hreads with
  | segment | anything => exact ⟨_, rfl⟩
  | nil | parameter => cases helements
  | @literal c rest later =>
      unfold consLiteral at helements
      split at helements <;> cases helements

/-- What is read after a text has its elements behind those of the text. -/
theorem Reads.of_append {earlier : List Element} (hearlier : Reads taken text earlier)
    (hreads : Reads taken (text ++ more) elements) :
    ∃ later, Reads taken more later ∧ elements = meet earlier later := by
  induction hearlier generalizing elements with
  | nil => exact ⟨elements, hreads, rfl⟩
  | parameter hinner hname _ ih =>
      rw [List.cons_append] at hreads
      cases hreads with
      | parameter hinner' hname' hrest =>
          rw [readPlaceholder_append hinner] at hinner'
          cases hinner'
          rw [hname] at hname'
          cases hname'
          obtain ⟨later, hlater, rfl⟩ := ih hrest
          refine ⟨later, hlater.mono (List.subset_cons_self _ _), ?_⟩
          rw [meet_cons_parameter]
      | literal hopen => exact absurd rfl hopen
  | anything hstar _ ih =>
      rw [List.cons_append, List.cons_append] at hreads
      cases hreads with
      | anything _ hrest =>
          obtain ⟨later, hlater, rfl⟩ := ih hrest
          exact ⟨later, hlater, by rw [meet_cons_anything]⟩
      | segment hstar' => exact absurd rfl (hstar' _)
      | literal _ _ hstar' => exact absurd rfl hstar'
  | @segment taken rest earlier hstar hearlier ih =>
      rw [List.cons_append] at hreads
      -- Only a star at the very end of the text can meet the star of another text.
      cases rest with
      | nil =>
        cases hearlier
        rw [List.nil_append] at hreads
        cases hreads with
        | anything hstar' hrest => exact ⟨_, .segment hstar' hrest, rfl⟩
        | @segment _ _ later hstar' hrest =>
            refine ⟨later, hrest, ?_⟩
            unfold meet Element.meet
            split
            · rename_i heq
              cases heq
            · obtain ⟨rest, rfl⟩ := hrest.eq_star
              exact absurd rfl (hstar' rest)
            · rfl
        | literal _ _ hstar' => exact absurd rfl hstar'
      | cons c rest =>
        have hc : c ≠ '*' := fun heq => hstar rest (by rw [heq])
        rw [List.cons_append] at hreads
        cases hreads with
        | anything => exact absurd rfl hc
        | segment _ hrest =>
            obtain ⟨later, hlater, rfl⟩ := ih hrest
            exact ⟨later, hlater, (meet_cons_of_ne_nil hearlier.ne_nil).symm⟩
        | literal _ _ hstar' => exact absurd rfl hstar'
  | literal hopen hclose hstar _ ih =>
      rw [List.cons_append] at hreads
      generalize hjoined : _ ++ more = joined at hreads
      cases hreads with
      | parameter => exact absurd rfl hopen
      | anything | segment => exact absurd rfl hstar
      | literal _ _ _ hrest =>
          subst hjoined
          obtain ⟨later, hlater, rfl⟩ := ih hrest
          exact ⟨later, hlater, (meet_consLiteral _ _ _).symm⟩

end Reads

end RequestRouting.Pattern.Template
