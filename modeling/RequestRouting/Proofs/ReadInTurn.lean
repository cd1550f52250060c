import RequestRouting.Proofs.Bodies

/-!
# Reading one text after the other

Two texts that can be read by themselves can be read one after the other (`Reads.append`), if no
name is in both, and unless stars meet that are not one star each: two single stars become one
element. Where three texts can be read in turn, this is so for the first two of them
(`Reads.append_of_append`).
-/

namespace RequestRouting.Pattern.Template

open Regex (Spells)

/-! ## Reading -/

/-- The last character of a text is one of what is behind any other character. -/
theorem getLast?_behind {c d : Char} (hne : c ≠ d) (before after : List Char) :
    (before ++ c :: after).getLast? = some d ↔ after.getLast? = some d := by
  rw [List.getLast?_append, List.getLast?_cons]
  cases after.getLast? <;> simp [hne]

theorem getLast?_consLiteral (c : Char) (elements : List Element) :
    (consLiteral c elements).getLast? = some .segment ↔ elements.getLast? = some .segment := by
  rcases elements with _ | ⟨_ | _, _ | _⟩ <;> simp [consLiteral]

variable {taken : List (List Char)} {text more : List Char} {earlier later elements : List Element}

theorem Reads.eq_nil (hreads : Reads taken text []) : text = [] := by
  cases text with
  | nil => rfl
  | cons c text => exact absurd rfl hreads.ne_nil

/-- A text whose last element is a star ends with it. -/
theorem Reads.getLast?_eq_star (hreads : Reads taken text elements)
    (hlast : elements.getLast? = some .segment) : text.getLast? = some '*' := by
  have hcons {c : Char} {rest : List Char} (hrest : rest.getLast? = some '*') :
      (c :: rest).getLast? = some '*' := by
    rw [List.getLast?_cons, hrest]
    rfl
  induction hreads with
  | nil => cases hlast
  | @parameter taken rest inner after name constraint later hinner _ _ ih =>
      rw [eq_append_of_readPlaceholder hinner]
      cases later with
      | nil => cases hlast
      | cons next later =>
          exact (getLast?_behind (by decide) ('\x7b' :: inner) after).mpr (ih hlast)
  | @anything taken rest later _ _ ih =>
      cases later with
      | nil => cases hlast
      | cons next later => exact hcons (hcons (ih hlast))
  | @segment taken rest later _ hrest ih =>
      cases later with
      | nil => rw [hrest.eq_nil]; rfl
      | cons next later => exact hcons (ih hlast)
  | @literal taken c rest later _ _ _ _ ih =>
      exact hcons (ih ((getLast?_consLiteral c later).mp hlast))

/-- A star ends the one text and one starts the other. -/
def StarsMeet (text more : List Char) : Prop :=
  text.getLast? = some '*' ∧ more.head? = some '*'

theorem Reads.starsMeet_of_touch (hreads : Reads taken text earlier)
    (hmore : Reads taken more later) (htouch : Touch earlier later) : StarsMeet text more := by
  obtain ⟨hlast, hfirst⟩ := htouch
  obtain ⟨back, rfl⟩ := List.head?_eq_some_iff.mp hfirst
  obtain ⟨rest, rfl⟩ := hmore.eq_star
  exact ⟨hreads.getLast?_eq_star hlast, rfl⟩

theorem getLast?_of_cons {c : Char} (hrest : (c :: text).getLast? = some '*') (hne : c ≠ '*') :
    text.getLast? = some '*' :=
  (getLast?_behind hne [] text).mp hrest

/-- Where a star follows a text that ends with one, each of them is a star by itself. -/
theorem Reads.single_star (hearlier : Reads taken text earlier)
    (hreads : Reads taken (text ++ '*' :: more) elements) (hlast : text.getLast? = some '*') :
    earlier.getLast? = some .segment ∧ ∀ tail, more ≠ '*' :: tail := by
  induction hearlier generalizing elements with
  | nil => cases hlast
  | @parameter taken rest inner after name constraint earlier hinner hname _ ih =>
      rw [eq_append_of_readPlaceholder hinner] at hlast
      have hafter : after.getLast? = some '*' :=
        (getLast?_behind (by decide) ('\x7b' :: inner) after).mp hlast
      rw [List.cons_append] at hreads
      cases hreads with
      | parameter hinner' hname' hrest =>
          rw [readPlaceholder_append hinner] at hinner'
          cases hinner'
          rw [hname] at hname'
          cases hname'
          obtain ⟨hsegment, hmore⟩ := ih hrest hafter
          exact ⟨by rw [List.getLast?_cons, hsegment]; rfl, hmore⟩
      | literal hopen => exact absurd rfl hopen
  | @anything taken rest earlier hstar _ ih =>
      rw [List.cons_append, List.cons_append] at hreads
      cases hreads with
      | anything hstar' hrest =>
          cases rest with
          | nil => exact absurd rfl (hstar' more)
          | cons c rest =>
              have hrest' : (c :: rest).getLast? = some '*' := by
                rwa [List.getLast?_cons_cons, List.getLast?_cons_cons] at hlast
              obtain ⟨hsegment, hmore⟩ := ih hrest hrest'
              exact ⟨by rw [List.getLast?_cons, hsegment]; rfl, hmore⟩
      | segment hstar' => exact absurd rfl (hstar' _)
      | literal _ _ hstar' => exact absurd rfl hstar'
  | @segment taken rest earlier hstar hearlier ih =>
      rw [List.cons_append] at hreads
      cases rest with
      | nil =>
          cases hearlier
          rw [List.nil_append] at hreads
          cases hreads with
          | anything hstar' => exact ⟨rfl, hstar'⟩
          | segment hstar' => exact absurd rfl (hstar' _)
          | literal _ _ hstar' => exact absurd rfl hstar'
      | cons c rest =>
          have hrest' : (c :: rest).getLast? = some '*' := by
            rwa [List.getLast?_cons_cons] at hlast
          rw [List.cons_append] at hreads
          cases hreads with
          | anything => exact absurd rfl (hstar rest)
          | segment _ hrest =>
              obtain ⟨hsegment, hmore⟩ := ih hrest hrest'
              exact ⟨by rw [List.getLast?_cons, hsegment]; rfl, hmore⟩
          | literal _ _ hstar' => exact absurd rfl hstar'
  | @literal taken c rest earlier hopen hclose hstar _ ih =>
      rw [List.cons_append] at hreads
      generalize hjoined : rest ++ '*' :: more = joined at hreads
      cases hreads with
      | parameter => exact absurd rfl hopen
      | anything | segment => exact absurd rfl hstar
      | literal _ _ _ hrest =>
          subst hjoined
          obtain ⟨hsegment, hmore⟩ := ih hrest (getLast?_of_cons hlast hstar)
          exact ⟨(getLast?_consLiteral c earlier).mpr hsegment, hmore⟩

/-- Where stars meet in a text that can be read, two stars become one element. -/
theorem Reads.touch_of_starsMeet {tail : List Char} (hearlier : Reads taken text earlier)
    (hlater : Reads taken more later) (hreads : Reads taken (text ++ (more ++ tail)) elements)
    (hmeet : StarsMeet text more) : Touch earlier later := by
  obtain ⟨hlast, hfirst⟩ := hmeet
  obtain ⟨rest, rfl⟩ := List.head?_eq_some_iff.mp hfirst
  obtain ⟨hsegment, hmore⟩ := hearlier.single_star hreads hlast
  refine ⟨hsegment, ?_⟩
  cases hlater with
  | anything => exact absurd rfl (hmore _)
  | segment => rfl
  | literal _ _ hstar => exact absurd rfl hstar

/-- More names in use are no hindrance, if they are other ones. -/
theorem Reads.of_names (hreads : Reads taken text elements) {larger : List (List Char)}
    (hnew : ∀ name ∈ namesOf elements, name ∉ larger) : Reads larger text elements := by
  induction hreads generalizing larger with
  | nil => exact .nil
  | @parameter taken rest inner after name constraint later hinner hname hlater ih =>
      obtain ⟨hsplit, hidentifier, hconstraint, _⟩ := placeholder_eq_ok_iff.mp hname
      have hown : name ∉ larger := hnew name List.mem_cons_self
      refine .parameter hinner
        (placeholder_eq_ok_iff.mpr ⟨hsplit, hidentifier, hconstraint, hown⟩) (ih ?_)
      intro other hmem
      have hother := (hlater.names.2 other hmem).2
      exact List.not_mem_cons_of_ne_of_not_mem
        (fun heq => hother (heq ▸ List.mem_cons_self)) (hnew other (.tail _ hmem))
  | anything hstar _ ih => exact .anything hstar (ih hnew)
  | segment hstar _ ih => exact .segment hstar (ih hnew)
  | literal hopen hclose hstar _ ih =>
      rw [namesOf_consLiteral] at hnew
      exact .literal hopen hclose hstar (ih hnew)

theorem Touch.of_cons {element : Element} (htouch : Touch (element :: earlier) later)
    (hne : element ≠ .segment ∨ earlier ≠ []) : Touch earlier later := by
  obtain ⟨hlast, hfirst⟩ := htouch
  cases earlier with
  | nil => simp_all
  | cons next earlier => exact ⟨by rwa [List.getLast?_cons_cons] at hlast, hfirst⟩

theorem StarsMeet.cons (hmeet : StarsMeet text more) (c : Char) : StarsMeet (c :: text) more := by
  obtain ⟨hlast, hfirst⟩ := hmeet
  exact ⟨by rw [List.getLast?_cons, hlast]; rfl, hfirst⟩

/-- Two texts that can be read can be read one after the other, if no name is in both and no star
meets another that is not by itself. -/
theorem Reads.append (hearlier : Reads taken text earlier) (hlater : Reads taken more later)
    (hnew : ∀ name ∈ namesOf later, name ∉ namesOf earlier)
    (hstars : StarsMeet text more → Touch earlier later) :
    Reads taken (text ++ more) (meet earlier later) := by
  induction hearlier with
  | nil => exact hlater
  | @parameter taken rest inner after name constraint earlier hinner hname _ ih =>
      have hbehind : StarsMeet after more → StarsMeet ('\x7b' :: rest) more := by
        rintro ⟨hlast, hfirst⟩
        rw [eq_append_of_readPlaceholder hinner]
        exact ⟨(getLast?_behind (by decide) ('\x7b' :: inner) after).mpr hlast, hfirst⟩
      rw [meet_cons_parameter]
      refine .parameter (readPlaceholder_append hinner) hname (ih ?_ ?_ ?_)
      · refine hlater.of_names fun other hmem => ?_
        exact List.not_mem_cons_of_ne_of_not_mem
          (fun heq => hnew other hmem (heq ▸ List.mem_cons_self)) (hlater.names.2 other hmem).2
      · exact fun other hmem hother => hnew other hmem (.tail _ hother)
      · exact fun hmeet => (hstars (hbehind hmeet)).of_cons (.inl nofun)
  | @anything taken rest earlier hstar hearlier ih =>
      rw [meet_cons_anything]
      refine .anything ?_ (ih hlater hnew fun hmeet =>
        (hstars ((hmeet.cons '*').cons '*')).of_cons (.inl nofun))
      intro tail heq
      cases rest with
      | nil =>
          have hmore : more = '*' :: tail := heq
          obtain ⟨hlast, _⟩ := hstars ⟨rfl, by rw [hmore]; rfl⟩
          cases hearlier
          cases hlast
      | cons c rest => exact hstar rest (by rw [(List.cons.inj heq).1])
  | @segment taken rest earlier hstar hearlier ih =>
      cases rest with
      | nil =>
          cases hearlier
          cases hlater with
          | nil => exact .segment nofun .nil
          | parameter hinner hname hlater => exact .segment nofun (.parameter hinner hname hlater)
          | anything =>
              obtain ⟨_, hfirst⟩ := hstars ⟨rfl, rfl⟩
              cases hfirst
          | segment hstar hlater => exact .anything hstar hlater
          | @literal _ c rest later hopen hclose hstar hlater =>
              have hmeet : meet [.segment] (consLiteral c later) =
                  .segment :: consLiteral c later := by
                rcases later with _ | ⟨_ | _, _⟩ <;> rfl
              rw [hmeet]
              refine .segment ?_ (.literal hopen hclose hstar hlater)
              exact fun tail heq => hstar (List.cons.inj heq).1
      | cons c rest =>
          rw [meet_cons_of_ne_nil hearlier.ne_nil]
          refine .segment ?_ (ih hlater hnew fun hmeet =>
            (hstars (hmeet.cons '*')).of_cons (.inr hearlier.ne_nil))
          exact fun tail heq => hstar rest (by rw [(List.cons.inj heq).1])
  | @literal taken c rest earlier hopen hclose hstar hearlier ih =>
      rw [meet_consLiteral]
      rw [namesOf_consLiteral] at hnew
      refine .literal hopen hclose hstar (ih hlater hnew fun hmeet => ?_)
      obtain ⟨hlast, hfirst⟩ := hstars (hmeet.cons c)
      exact ⟨(getLast?_consLiteral c earlier).mp hlast, hfirst⟩

theorem Reads.unique {others : List Element} (hreads : Reads taken text elements)
    (hothers : Reads taken text others) : elements = others :=
  Except.ok.inj (hreads.readElements_eq.symm.trans hothers.readElements_eq)

/-- The first two of three texts can be read one after the other, if all three can. -/
theorem Reads.append_of_append {middle : List Element} {tail : List Char}
    (hearlier : Reads taken text earlier)
    (hmiddle : Reads taken more middle) (hreads : Reads taken (text ++ (more ++ tail)) elements) :
    Reads taken (text ++ more) (meet earlier middle) := by
  refine hearlier.append hmiddle ?_ (hearlier.touch_of_starsMeet hmiddle hreads)
  intro name hmem hused
  obtain ⟨later, hlater, rfl⟩ := hearlier.of_append hreads
  obtain ⟨last, _, rfl⟩ := hmiddle.of_append hlater
  obtain ⟨hnodup, _⟩ := hreads.names
  rw [namesOf_meet, namesOf_meet] at hnodup
  exact (List.nodup_append.mp hnodup).2.2 _ hused _ (List.mem_append_left _ hmem) rfl

theorem reads_of_plain (hplain : readsAsTemplate text = false) (hclose : '\x7d' ∉ text) :
    Reads taken text (text.foldr consLiteral []) := by
  induction text with
  | nil => exact .nil
  | cons c text ih =>
      simp only [readsAsTemplate, List.any_cons, Bool.or_eq_false_iff,
        beq_eq_false_iff_ne] at hplain
      obtain ⟨⟨hopen, hstar⟩, hrest⟩ := hplain
      rw [List.mem_cons, not_or] at hclose
      obtain ⟨hne, hclose⟩ := hclose
      exact .literal hopen (Ne.symm hne) hstar (ih hrest hclose)

theorem all_isWellFormed_meet (earlier later : List Element) :
    (meet earlier later).all Element.isWellFormed =
      (earlier.all Element.isWellFormed && later.all Element.isWellFormed) := by
  fun_induction meet earlier later with
  | case1 => rfl
  | case2 element later =>
      unfold Element.meet
      split <;> simp [Element.isWellFormed]
  | case3 element next earlier later ih => simp [ih, Bool.and_assoc]

/-! ## The expressions of two texts -/

/-- Where the elements of two texts, with what is between them, are known expressions together,
those of each text are. -/
theorem exists_spells_of_around {earlier later : List Element}
    (hearlier : earlier.all Element.isWellFormed = true)
    (hlater : later.all Element.isWellFormed = true)
    (hnames : ∀ name ∈ namesOf earlier, isIdentifier name = true)
    (hothers : ∀ name ∈ namesOf later, isIdentifier name = true)
    {between : List Char} {middle added : Regex.Reading} (hmiddle : Spells between middle)
    (hspells : Spells (bodyOf earlier ++ (between ++ bodyOf later)) added) :
    (∃ first, Spells (bodyOf earlier) first) ∧ ∃ second, Spells (bodyOf later) second := by
  rcases spells_or earlier hearlier hnames with ⟨first, hfirst, _⟩ | hnone
  · rcases spells_or later hlater hothers with ⟨second, hsecond, _⟩ | hnone
    · exact ⟨⟨first, hfirst⟩, second, hsecond⟩
    · exact absurd (hfirst.adds.append (hmiddle.adds.append hnone)) hspells.not_adds_none
  · exact absurd (hnone.none_append _) hspells.not_adds_none

/-- Where the elements of two texts are known expressions together, those of each text are. -/
theorem exists_spells_of_meet {earlier later : List Element}
    (hearlier : earlier.all Element.isWellFormed = true)
    (hlater : later.all Element.isWellFormed = true)
    (hnames : ∀ name ∈ namesOf earlier, isIdentifier name = true)
    (hothers : ∀ name ∈ namesOf later, isIdentifier name = true) {added : Regex.Reading}
    (hspells : Spells (bodyOf (meet earlier later)) added) :
    (∃ first, Spells (bodyOf earlier) first) ∧ ∃ second, Spells (bodyOf later) second := by
  by_cases htouch : Touch earlier later
  · -- The two stars are one element, which goes with any text, and so does each star by itself.
    obtain ⟨front, back, rfl, rfl, hmeet⟩ := exists_of_touch htouch
    rw [hmeet, bodyOf, List.flatMap_append, List.flatMap_cons] at hspells
    rw [List.all_append, Bool.and_eq_true] at hearlier
    rw [List.all_cons, Bool.and_eq_true] at hlater
    have hfront : ∀ name ∈ namesOf front, isIdentifier name = true := fun name hmem =>
      hnames name (by rw [namesOf, List.filterMap_append]; exact List.mem_append_left _ hmem)
    obtain ⟨⟨first, hfirst⟩, second, hsecond⟩ :=
      exists_spells_of_around hearlier.1 hlater.2 hfront hothers Spells.anything hspells
    have hfree (state : Regex.Reading) :
        state.clashes (({} : Regex.Reading).pushRun none 0 Regex.notSlash 1) = false ∧
          (({} : Regex.Reading).pushRun none 0 Regex.notSlash 1).clashes state = false := by
      simp [Regex.Reading.clashes, Regex.Reading.pushRun]
    have hstar : bodyOf (front ++ [.segment]) = bodyOf front ++ Element.segment.body := by
      rw [bodyOf, List.flatMap_append, List.flatMap_singleton]
      rfl
    rw [hstar]
    exact ⟨⟨_, hfirst.append .segment (hfree first).1⟩, _,
      Spells.segment.append hsecond (hfree second).2⟩
  · rw [bodyOf_meet htouch] at hspells
    exact exists_spells_of_around hearlier hlater hnames hothers .nil hspells

end RequestRouting.Pattern.Template
