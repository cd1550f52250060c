import RequestRouting.Proofs.Extension

/-!
# Reading a class in front of a closing parenthesis

In a bracketed class a parenthesis is a character like any other, but a class is closed by its
bracket: what is read of a class is read of it in front of a closing parenthesis too
(`readClass_extends`).
-/

namespace RequestRouting.Regex

variable {flags : Flags} {text left : List Char}

/-! ## Bracketed classes -/

theorem readHyphens_append {fuel enough : Nat} {cls found : OpenClass}
    (hfuel : text.length < fuel) (henough : fuel ≤ enough)
    (hread : readHyphens flags fuel cls text = some (found, left)) (more : List Char) :
    left ≠ [] ∧ readHyphens flags enough cls (text ++ more) = some (found, left ++ more) := by
  induction fuel generalizing enough cls text with
  | zero => exact absurd hfuel (Nat.not_lt_zero _)
  | succ fuel ih =>
      obtain ⟨enough, rfl⟩ : ∃ less, enough = less + 1 := ⟨enough - 1, by omega⟩
      cases text with
      | nil => cases hread
      | cons c rest =>
          by_cases hc : c = '-'
          · subst hc
            rw [readHyphens] at hread
            rw [List.cons_append, readHyphens]
            have hlength := flags.length_skip_le (Nat.le_refl rest.length)
            rw [List.length_cons] at hfuel
            cases hskip : flags.skip rest with
            | nil =>
                rw [hskip] at hread
                obtain ⟨fuel, rfl⟩ : ∃ less, fuel = less + 1 := ⟨fuel - 1, by omega⟩
                cases hread
            | cons d others =>
                rw [flags.skip_append hskip]
                rw [hskip] at hread hlength
                exact ih (by omega) (Nat.le_of_succ_le_succ henough) hread
          · have hstop (fuel : Nat) (rest : List Char) :
                readHyphens flags (fuel + 1) cls (c :: rest) = some (cls, c :: rest) := by
              rw [readHyphens.eq_def]
              dsimp only
              split
              · rename_i heq
                exact absurd (List.cons.inj heq).1 hc
              · rename_i heq
                cases heq
              · rfl
            rw [hstop] at hread
            cases hread
            exact ⟨List.cons_ne_nil _ _, hstop _ _⟩

/-- The hyphens at the start of a class, behind its negation. -/
def readOpening (flags : Flags) (negated : Bool) (text : List Char) :
    Option (OpenClass × List Char) := do
  let (cls, text) ← readHyphens flags text.length.succ ⟨negated, [], none⟩ text
  match text with
  | [] => none
  | ']' :: rest =>
      if cls.items.isEmpty then
        match flags.skip rest with
        | [] => none
        | rest => some (cls.push ⟨.single ']', 0⟩, rest)
      else some (cls, text)
  | _ => some (cls, text)

theorem readOpening_append {negated : Bool} {cls : OpenClass}
    (hread : readOpening flags negated text = some (cls, left)) (more : List Char) :
    readOpening flags negated (text ++ more) = some (cls, left ++ more) := by
  obtain ⟨⟨found, after⟩, hhyphens, hread⟩ := Option.bind_eq_some_iff.mp hread
  have hlength : text.length.succ ≤ (text ++ more).length.succ := by simp
  obtain ⟨hafter, hmore⟩ := readHyphens_append (Nat.lt_succ_self _) hlength hhyphens more
  simp only [readOpening, hmore, bind, Option.bind_some]
  dsimp only at hread
  split at hread
  · exact absurd rfl hafter
  · rename_i rest
    simp only [List.cons_append]
    split at hread
    · rw [if_pos ‹_›]
      cases hskip : flags.skip rest with
      | nil =>
          rw [hskip] at hread
          cases hread
      | cons c others =>
          rw [hskip] at hread
          cases hread
          simp only [flags.skip_append hskip, List.cons_append]
    · rw [if_neg ‹_›]
      cases hread
      rfl
  · rename_i hplain
    obtain ⟨c, rest, rfl⟩ := List.exists_cons_of_ne_nil hafter
    cases hread
    simp only [List.cons_append]
    split
    · rename_i heq
      cases heq
    · rename_i heq
      cases heq
      exact absurd rfl (hplain rest)
    · rfl

theorem openClass_of_negation {rest : List Char} (hskip : flags.skip text = '^' :: rest) :
    openClass flags text = readOpening flags true (flags.skip rest) := by
  simp only [openClass, hskip]
  rfl

theorem openClass_of_ne_negation {c : Char} {rest : List Char} (hskip : flags.skip text = c :: rest)
    (hc : c ≠ '^') : openClass flags text = readOpening flags false (c :: rest) := by
  simp only [openClass, hskip]
  split
  · rename_i heq
    exact absurd (List.cons.inj heq).1 hc
  · rfl

theorem openClass_append {cls : OpenClass} (hread : openClass flags text = some (cls, left))
    (more : List Char) : openClass flags (text ++ more) = some (cls, left ++ more) := by
  cases hskip : flags.skip text with
  | nil =>
      simp only [openClass, hskip] at hread
      cases hread
  | cons c rest =>
      have hmore := flags.skip_append hskip more
      by_cases hc : c = '^'
      · subst hc
        rw [openClass_of_negation hskip] at hread
        rw [List.cons_append] at hmore
        rw [openClass_of_negation hmore]
        cases hskip : flags.skip rest with
        | nil =>
            rw [hskip] at hread
            cases hread
        | cons d others =>
            rw [flags.skip_append hskip]
            rw [hskip] at hread
            exact readOpening_append hread more
      · rw [openClass_of_ne_negation hskip hc] at hread
        rw [openClass_of_ne_negation hmore hc]
        exact readOpening_append hread more

theorem splitAtFirst_singleton (separator c : Char) (rest : List Char) :
    splitAtFirst [separator] (c :: rest) =
      if separator == c then some ([], rest)
      else (splitAtFirst [separator] rest).map fun found => (c :: found.1, found.2) := by
  rw [splitAtFirst]
  simp [List.isPrefixOf_cons_cons]

theorem splitAtFirst_append {separator : Char} {name : List Char}
    (hread : splitAtFirst [separator] text = some (name, left)) (more : List Char) :
    splitAtFirst [separator] (text ++ more) = some (name, left ++ more) := by
  induction text generalizing name with
  | nil => cases hread
  | cons c rest ih =>
      rw [splitAtFirst_singleton] at hread
      rw [List.cons_append, splitAtFirst_singleton]
      split at hread
      · rw [if_pos ‹_›]
        cases hread
        rfl
      · rw [if_neg ‹_›]
        obtain ⟨⟨before, after⟩, hlater, heq⟩ := Option.map_eq_some_iff.mp hread
        cases heq
        rw [ih hlater]
        rfl

/-- What comes before a separator that only a longer text has is all of the text. -/
theorem mem_of_splitAtFirst_append {separator c : Char} {tail name after : List Char}
    (hnone : splitAtFirst [separator] text = none) (hc : separator ≠ c)
    (hmore : splitAtFirst [separator] (text ++ c :: tail) = some (name, after)) : c ∈ name := by
  induction text generalizing name with
  | nil =>
      rw [List.nil_append, splitAtFirst_singleton, if_neg (by simpa using hc)] at hmore
      obtain ⟨⟨before, _⟩, _, heq⟩ := Option.map_eq_some_iff.mp hmore
      cases heq
      exact List.mem_cons_self
  | cons d rest ih =>
      rw [splitAtFirst_singleton] at hnone
      rw [List.cons_append, splitAtFirst_singleton] at hmore
      split at hnone
      · cases hnone
      · rw [if_neg ‹_›] at hmore
        obtain ⟨⟨before, _⟩, hlater, heq⟩ := Option.map_eq_some_iff.mp hmore
        cases heq
        exact List.mem_cons_of_mem _ (ih (Option.map_eq_none_iff.mp hnone) hlater)

/-- No ASCII class has a parenthesis in its name. -/
theorem ofAsciiName?_of_mem {name : List Char} (hmem : ')' ∈ name) :
    CharSet.ofAsciiName? (String.ofList name) = none := by
  unfold CharSet.ofAsciiName?
  split
  all_goals first
    | rfl
    | (rename_i heq
       have hname := congrArg String.toList heq
       rw [String.toList_ofList] at hname
       rw [hname] at hmem
       revert hmem
       decide)

theorem readAsciiName_append (negated : Bool) (text tail : List Char) :
    readAsciiName negated (text ++ ')' :: tail) =
      (readAsciiName negated text).map fun found => (found.1, found.2 ++ ')' :: tail) := by
  unfold readAsciiName
  cases hsplit : splitAtFirst [':'] text with
  | none =>
      dsimp only
      split
      · rename_i name rest hmore
        rw [ofAsciiName?_of_mem (mem_of_splitAtFirst_append hsplit (by decide) hmore)]
        rfl
      · rfl
  | some found =>
      obtain ⟨name, after⟩ := found
      rw [splitAtFirst_append hsplit]
      cases after with
      | nil => rfl
      | cons c rest =>
          by_cases hc : c = ']'
          · subst hc
            simp only [List.cons_append, Option.map_map]
            rfl
          · split
            · rename_i heq
              cases heq
              exact absurd rfl hc
            · split
              · rename_i heq
                cases heq
                exact absurd rfl hc
              · rfl

theorem readAsciiClass_of_ne_colon {c : Char} (hc : c ≠ ':') (rest : List Char) :
    readAsciiClass (c :: rest) = none := by
  unfold readAsciiClass
  split
  · rename_i heq
    exact absurd (List.cons.inj heq).1 hc
  · rename_i heq
    exact absurd (List.cons.inj heq).1 hc
  · rfl

theorem readAsciiClass_of_ne_negation {c : Char} (hc : c ≠ '^') (rest : List Char) :
    readAsciiClass (':' :: c :: rest) = readAsciiName false (c :: rest) := by
  unfold readAsciiClass
  split
  · rename_i heq
    simp only [List.cons.injEq, true_and] at heq
    exact absurd heq.1 hc
  · rename_i heq
    rw [(List.cons.inj heq).2]
  · rename_i hnone
    exact absurd rfl (hnone _)

/-- Whether there is a named class does not depend on what is behind a closing parenthesis. -/
theorem readAsciiClass_append (text tail : List Char) :
    readAsciiClass (text ++ ')' :: tail) =
      (readAsciiClass text).map fun found => (found.1, found.2 ++ ')' :: tail) := by
  cases text with
  | nil => exact readAsciiClass_of_ne_colon (by decide) _
  | cons c rest =>
      by_cases hc : c = ':'
      · subst hc
        cases rest with
        | nil =>
            refine (readAsciiClass_of_ne_negation (by decide) _).trans ?_
            exact readAsciiName_append false [] tail
        | cons d rest =>
            by_cases hd : d = '^'
            · subst hd
              exact readAsciiName_append true rest tail
            · rw [readAsciiClass_of_ne_negation hd]
              refine (readAsciiClass_of_ne_negation hd _).trans ?_
              exact readAsciiName_append false (d :: rest) tail
      · rw [readAsciiClass_of_ne_colon hc]
        exact readAsciiClass_of_ne_colon hc _

theorem readAtom_extends (text : List Char) : Extends (readAtom flags) text := by
  cases text with
  | nil => exact .of_eq_none rfl
  | cons c rest =>
      by_cases hc : c = '\\'
      · subst hc
        exact .cons (readEscape_extends rest)
      · have hplain (rest : List Char) :
            readAtom flags (c :: rest) = some (.character c, rest) := by
          unfold readAtom
          split
          · rename_i heq
            cases heq
          · rename_i heq
            exact absurd (List.cons.inj heq).1 hc
          · rename_i heq
            cases heq
            rfl
        refine .of_append fun a left hread more => ?_
        rw [hplain] at hread
        cases hread
        exact hplain _

/-- An atom of a class is read as before, as something else of the class has to follow it. -/
theorem readAtom_append {a : Atom} {c : Char} {rest : List Char}
    (hread : readAtom flags text = some (a, left)) (hskip : flags.skip left = c :: rest)
    (tail : List Char) :
    ∃ after, readAtom flags (text ++ ')' :: tail) = some (a, after) ∧
      flags.skip after = c :: rest ++ ')' :: tail := by
  rcases readAtom_extends text a left hread with hmore | ⟨rfl, _⟩
  · exact ⟨_, hmore tail, flags.skip_append hskip _⟩
  · rw [flags.skip_nil] at hskip
    cases hskip

theorem dropWhile_isBlank_append (text tail : List Char) :
    (text ++ ')' :: tail).dropWhile Text.isBlank =
      text.dropWhile Text.isBlank ++ ')' :: tail := by
  induction text with
  | nil => rfl
  | cons c text ih =>
      rw [List.cons_append, List.dropWhile_cons, List.dropWhile_cons]
      split
      · exact ih
      · rfl

/-- The character after the next one is the parenthesis if the text has none. -/
theorem peekSecond_append (flags : Flags) (c : Char) (rest tail : List Char) :
    flags.peekSecond (c :: rest ++ ')' :: tail) =
      (flags.peekSecond (c :: rest)).or (some ')') := by
  have hhead (text : List Char) : (text ++ ')' :: tail).head? = text.head?.or (some ')') := by
    cases text <;> rfl
  unfold Flags.peekSecond
  simp only [List.cons_append, List.drop_succ_cons, List.drop_zero, dropWhile_isBlank_append]
  split
  · cases rest.dropWhile Text.isBlank with
    | nil => rfl
    | cons d others =>
        by_cases hd : d = '#'
        · subst hd
          simp only [List.cons_append, dropWhile_isBlank_append, hhead]
        · simp [hd]
  · exact hhead _

/-- The second end of a range, behind the hyphen. -/
def readRange (flags : Flags) (first : Atom) (text : List Char) :
    Option (Nested × List Char) := do
  let (last, rest) ← readAtom flags (flags.skip text)
  match first, last with
  | .character low, .character high =>
      if low ≤ high && (flags.unicode || high.toNat < 128) then
        some (⟨.range low high, 0⟩, rest)
      else none
  | _, _ => none

theorem readRange_extends (first : Atom) (text : List Char) :
    Extends (readRange flags first) text := by
  have hsecond : Extends (fun text => readAtom flags (flags.skip text)) text :=
    .skip (readAtom_extends _) (readAtom_leaves (Nat.le_refl _))
  refine .bind hsecond (fun last left _ => ?_) fun last => ?_
  · dsimp only
    split
    · exact .ite (fun _ => .of_append fun _ _ hread _ => by cases hread; rfl)
        fun _ => .of_eq_none rfl
    · exact .of_eq_none rfl
  · dsimp only
    split
    · exact .ite (.some (Nat.le_refl _)) .none
    · exact .none

section Item

variable {first : Atom} {c : Char} {rest : List Char}
  (hfirst : readAtom flags text = some (first, left))

include hfirst

theorem readItem_of_hyphen (hskip : flags.skip left = '-' :: rest) :
    readItem flags text =
      if flags.peekSecond ('-' :: rest) == some ']' || flags.peekSecond ('-' :: rest) == some '-'
      then (first.toItem? flags).map (·, '-' :: rest)
      else readRange flags first rest := by
  simp only [readItem, hfirst, bind, Option.bind_some, hskip]
  rfl

theorem readItem_of_ne_hyphen (hskip : flags.skip left = c :: rest) (hc : c ≠ '-') :
    readItem flags text = (first.toItem? flags).map (·, c :: rest) := by
  simp only [readItem, hfirst, bind, Option.bind_some, hskip, List.cons.injEq, hc, false_and,
    imp_false, not_false_eq_true, implies_true]

end Item

theorem readItem_extends (text : List Char) : Extends (readItem flags) text := by
  cases hfirst : readAtom flags text with
  | none => exact .of_eq_none (by rw [readItem, hfirst]; rfl)
  | some found =>
      obtain ⟨first, left⟩ := found
      cases hskip : flags.skip left with
      | nil =>
          refine .of_eq_none ?_
          simp only [readItem, hfirst, bind, Option.bind_some, hskip]
      | cons c rest =>
          intro item left' hread
          by_cases hc : c = '-'
          · subst hc
            have hpeek : ∀ peeked : Option Char,
                (peeked.or (some ')') == some ']' || peeked.or (some ')') == some '-') =
                  (peeked == some ']' || peeked == some '-')
              | none => rfl
              | some _ => rfl
            have hmore (tail : List Char) : readItem flags (text ++ ')' :: tail) =
                if flags.peekSecond ('-' :: rest) == some ']' ||
                  flags.peekSecond ('-' :: rest) == some '-'
                then (first.toItem? flags).map (·, '-' :: rest ++ ')' :: tail)
                else readRange flags first (rest ++ ')' :: tail) := by
              obtain ⟨after, hafter, hskip⟩ := readAtom_append hfirst hskip tail
              rw [← hpeek, ← peekSecond_append flags '-' rest tail]
              exact readItem_of_hyphen hafter hskip
            rw [readItem_of_hyphen hfirst hskip] at hread
            simp only [hmore]
            split at hread
            · obtain ⟨item, hitem, heq⟩ := Option.map_eq_some_iff.mp hread
              cases heq
              exact .inl fun tail => by rw [if_pos ‹_›, hitem]; rfl
            · simp only [if_neg ‹_›]
              exact readRange_extends first rest _ _ hread
          · refine .inl fun tail => ?_
            obtain ⟨after, hafter, hskip'⟩ := readAtom_append hfirst hskip tail
            rw [readItem_of_ne_hyphen hfirst hskip hc] at hread
            rw [readItem_of_ne_hyphen hafter hskip' hc]
            obtain ⟨item, hitem, heq⟩ := Option.map_eq_some_iff.mp hread
            cases heq
            rw [hitem]
            rfl

theorem readClassFrom_nil (fuel : Nat) (outer : List OpenClass) (cls : OpenClass) :
    readClassFrom flags fuel outer cls [] = none := by
  cases fuel with
  | zero => rfl
  | succ fuel => rw [readClassFrom, flags.skip_nil]

/-- An operator of a class is not made up of the end of a text and a parenthesis. -/
theorem operator_append {c d : Char} {rest others tail : List Char}
    (heq : c :: rest ++ ')' :: tail = d :: d :: others) (hd : d ≠ ')') :
    ∃ others', c :: rest = d :: d :: others' := by
  cases rest with
  | nil => exact absurd (List.cons.inj (List.cons.inj heq).2).1.symm hd
  | cons first rest =>
      obtain ⟨rfl, hrest⟩ := List.cons.inj heq
      obtain ⟨rfl, _⟩ := List.cons.inj hrest
      exact ⟨rest, rfl⟩

theorem readClassFrom_append {fuel enough : Nat} (henough : fuel ≤ enough)
    {outer : List OpenClass} {cls : OpenClass} {item : Nested}
    (hread : readClassFrom flags fuel outer cls text = some (item, left)) (tail : List Char) :
    readClassFrom flags enough outer cls (text ++ ')' :: tail) =
      some (item, left ++ ')' :: tail) := by
  induction fuel generalizing enough outer cls text with
  | zero => cases hread
  | succ fuel ih =>
      obtain ⟨enough, rfl⟩ : ∃ less, enough = less + 1 := ⟨enough - 1, by omega⟩
      have henough := Nat.le_of_succ_le_succ henough
      rw [readClassFrom] at hread ⊢
      cases hskip : flags.skip text with
      | nil =>
          rw [hskip] at hread
          cases hread
      | cons c rest =>
          rw [hskip] at hread
          rw [flags.skip_append hskip]
          split at hread
          · cases hread
          · -- An opening bracket: a class with a name, or one more class inside.
            rename_i rest' heq
            cases heq
            simp only [List.cons_append, readAsciiClass_append]
            cases hascii : readAsciiClass rest with
            | some found =>
                simp only [hascii] at hread
                obtain ⟨item, hitem, hread⟩ := Option.bind_eq_some_iff.mp hread
                simp only [Option.map_some, hitem, bind, Option.bind_some]
                exact ih henough hread
            | none =>
                simp only [hascii] at hread
                obtain ⟨⟨inner, after⟩, hopen, hread⟩ := Option.bind_eq_some_iff.mp hread
                simp only [Option.map_none, openClass_append hopen, bind, Option.bind_some]
                exact ih henough hread
          · -- A closing bracket.
            rename_i heq
            cases heq
            obtain ⟨closed, hclosed, hread⟩ := Option.bind_eq_some_iff.mp hread
            simp only [List.cons_append, hclosed, bind, Option.bind_some]
            cases outer with
            | nil =>
                cases hread
                rfl
            | cons parent outer => exact ih henough hread
          · rename_i heq
            cases heq
            exact ih henough hread
          · rename_i heq
            cases heq
            exact ih henough hread
          · rename_i heq
            cases heq
            exact ih henough hread
          · -- An item. In front of a parenthesis it is no operator either: those have two
            -- characters.
            rename_i hbracket hclose hinter hdiff hsymm
            obtain ⟨⟨inner, after⟩, hitem, hread⟩ := Option.bind_eq_some_iff.mp hread
            rcases readItem_extends _ _ _ hitem with hmore | ⟨rfl, _⟩
            · split
              · rename_i heq
                cases heq
              · rename_i heq
                cases heq
                exact absurd rfl (hbracket _)
              · rename_i heq
                cases heq
                exact absurd rfl (hclose _)
              · obtain ⟨_, heq⟩ := operator_append ‹_› (by decide)
                exact absurd heq (hinter _)
              · obtain ⟨_, heq⟩ := operator_append ‹_› (by decide)
                exact absurd heq (hdiff _)
              · obtain ⟨_, heq⟩ := operator_append ‹_› (by decide)
                exact absurd heq (hsymm _)
              · simp only [hmore, bind, Option.bind_some]
                exact ih henough hread
            · dsimp only at hread
              rw [readClassFrom_nil] at hread
              cases hread

theorem readClass_extends (text : List Char) : Extends (readClass flags) text := by
  intro item left hread
  obtain ⟨⟨cls, after⟩, hopen, hread⟩ := Option.bind_eq_some_iff.mp hread
  refine .inl fun tail => ?_
  have hlength : after.length.succ ≤ (after ++ ')' :: tail).length.succ := by simp
  simp only [readClass, openClass_append hopen, bind, Option.bind_some]
  exact readClassFrom_append hlength hread tail

end RequestRouting.Regex
