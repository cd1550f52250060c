import RequestRouting.Proofs.Reading

/-!
# Reading in front of a closing parenthesis

An expression that stands in a group is read up to the parenthesis that closes the group. What a
reader finds in a text it finds there too, and leaves the parenthesis with what is behind it
(`Extends`). Nothing in the text can be read on into a parenthesis: no escape, no name and no
repetition has one in it. Here are blanks, readers one after the other, and escapes.

There is one exception. Where blanks do not count, a text may end in a comment, and a comment
takes whatever follows in its line.
-/

namespace RequestRouting.Regex

/-- What is read of a text is read of it in front of a closing parenthesis, unless a comment at its
end takes that, and all of the line behind it. -/
def Extends {α : Type} (read : List Char → Option (α × List Char)) (text : List Char) : Prop :=
  ∀ a left, read text = some (a, left) →
    (∀ tail, read (text ++ ')' :: tail) = some (a, left ++ ')' :: tail)) ∨
      (left = [] ∧ ∀ tail, '\n' ∉ tail → read (text ++ ')' :: tail) = some (a, []))

/-! ## Blanks and comments -/

section Skip

variable {flags : Flags} {text : List Char}

theorem skipBlanksFrom_eq {fuel : Nat} (hfuel : text.length ≤ fuel) :
    skipBlanksFrom fuel text = skipBlanksFrom text.length text := by
  induction fuel using Nat.strongRecOn generalizing text with
  | ind fuel ih =>
      cases text with
      | nil => cases fuel <;> rfl
      | cons c rest =>
          obtain ⟨fuel, rfl⟩ : ∃ less, fuel = less + 1 := ⟨fuel - 1, by simp at hfuel; omega⟩
          have hrest : rest.length ≤ fuel := Nat.le_of_succ_le_succ hfuel
          have hcomment := length_skipComment_le rest
          rw [List.length_cons, skipBlanksFrom, skipBlanksFrom, ih fuel (Nat.lt_succ_self _) hrest,
            ih fuel (Nat.lt_succ_self _) (Nat.le_trans hcomment hrest),
            ih rest.length (by omega) hcomment]

theorem Flags.skip_of_not_verbose (hverbose : flags.verbose = false) (text : List Char) :
    flags.skip text = text := by
  simp [skip, hverbose]

theorem Flags.skip_nil (flags : Flags) : flags.skip [] = [] := by
  unfold skip
  split <;> rfl

theorem Flags.skip_cons (hverbose : flags.verbose = true) (c : Char) (rest : List Char) :
    flags.skip (c :: rest) =
      if Text.isBlank c then flags.skip rest
      else if c = '#' then flags.skip (skipComment rest) else c :: rest := by
  have hcomment := length_skipComment_le rest
  simp only [skip, hverbose, if_true, List.length_cons, skipBlanksFrom,
    skipBlanksFrom_eq hcomment]

theorem skipComment_append (text more : List Char) :
    skipComment (text ++ more) =
      if '\n' ∈ text then skipComment text ++ more else skipComment more := by
  induction text with
  | nil => simp
  | cons c text ih =>
      rw [List.cons_append, skipComment, skipComment]
      by_cases hc : c = '\n'
      · simp [hc]
      · rw [if_neg hc, if_neg hc, ih]
        simp [Ne.symm hc]

theorem skipComment_of_not_mem (hline : '\n' ∉ text) : skipComment text = [] := by
  induction text with
  | nil => rfl
  | cons c text ih =>
      rw [List.mem_cons, not_or] at hline
      rw [skipComment, if_neg (Ne.symm hline.1), ih hline.2]

/-- What comes after blanks and comments comes after them in a longer text. -/
theorem Flags.skip_append {c : Char} {rest : List Char} (hskip : flags.skip text = c :: rest)
    (more : List Char) : flags.skip (text ++ more) = c :: rest ++ more := by
  cases hverbose : flags.verbose with
  | false =>
      rw [skip_of_not_verbose hverbose] at hskip ⊢
      rw [hskip]
  | true =>
      induction hlength : text.length using Nat.strongRecOn generalizing text with
      | ind length ih =>
          cases text with
          | nil =>
              rw [skip_nil] at hskip
              cases hskip
          | cons d text =>
              have hcomment := length_skipComment_le text
              rw [List.length_cons] at hlength
              rw [skip_cons hverbose] at hskip
              rw [List.cons_append, skip_cons hverbose]
              split at hskip
              · rw [if_pos ‹_›]
                exact ih text.length (by omega) hskip rfl
              · rw [if_neg ‹_›]
                split at hskip
                · rw [if_pos ‹_›, skipComment_append]
                  split
                  · exact ih _ (by omega) hskip rfl
                  · rw [skipComment_of_not_mem ‹_›, skip_nil] at hskip
                    cases hskip
                · rw [if_neg ‹_›]
                  cases hskip
                  rfl

theorem Flags.skip_parenthesis (flags : Flags) (tail : List Char) :
    flags.skip (')' :: tail) = ')' :: tail := by
  cases hverbose : flags.verbose with
  | false => exact skip_of_not_verbose hverbose _
  | true =>
      rw [skip_cons hverbose, if_neg (by decide), if_neg (by decide)]

/-- A text of blanks and comments only leaves a closing parenthesis behind it, unless its last line
is a comment. -/
theorem Flags.skip_of_eq_nil (hskip : flags.skip text = []) :
    (∀ tail, flags.skip (text ++ ')' :: tail) = ')' :: tail) ∨
      ∀ tail, '\n' ∉ tail → flags.skip (text ++ ')' :: tail) = [] := by
  cases hverbose : flags.verbose with
  | false =>
      rw [skip_of_not_verbose hverbose] at hskip
      subst hskip
      exact .inl flags.skip_parenthesis
  | true =>
      induction hlength : text.length using Nat.strongRecOn generalizing text with
      | ind length ih =>
          cases text with
          | nil => exact .inl flags.skip_parenthesis
          | cons c text =>
              have hcomment := length_skipComment_le text
              rw [List.length_cons] at hlength
              rw [skip_cons hverbose] at hskip
              simp only [List.cons_append, skip_cons hverbose, skipComment_append]
              by_cases hblank : Text.isBlank c = true
              · simp only [if_pos hblank] at hskip ⊢
                exact ih text.length (by omega) hskip rfl
              · simp only [if_neg hblank] at hskip ⊢
                by_cases hmark : c = '#'
                · simp only [if_pos hmark] at hskip ⊢
                  by_cases hline : '\n' ∈ text
                  · simp only [if_pos hline]
                    exact ih _ (by omega) hskip rfl
                  · refine .inr fun tail htail => ?_
                    have hmore : '\n' ∉ ')' :: tail := by simp [htail]
                    rw [if_neg hline, skipComment_of_not_mem hmore, skip_nil]
                · rw [if_neg hmark] at hskip
                  cases hskip

end Skip

/-! ## Readers one after the other -/

namespace Extends

variable {α β : Type} {read : List Char → Option (α × List Char)} {text : List Char}

theorem of_eq_none (hnone : read text = none) : Extends read text := by
  intro a left hread
  rw [hnone] at hread
  cases hread

/-- The reader never comes to the end of the text. -/
theorem of_append (hread : ∀ a left, read text = some (a, left) → ∀ more,
    read (text ++ more) = some (a, left ++ more)) : Extends read text :=
  fun a left hleft => .inl fun tail => hread a left hleft (')' :: tail)

/-- A second reader goes on with what the first one leaves. -/
theorem bind {onward : α × List Char → Option (β × List Char)} (hfirst : Extends read text)
    (honward : ∀ a left, read text = some (a, left) → Extends (fun left => onward (a, left)) left)
    (hnil : ∀ a, LeavesAtMost 0 (onward (a, []))) :
    Extends (fun text => (read text).bind onward) text := by
  intro b left hleft
  obtain ⟨⟨a, middle⟩, hread, hleft⟩ := Option.bind_eq_some_iff.mp hleft
  rcases hfirst a middle hread with hkept | ⟨rfl, htaken⟩
  · rcases honward a middle hread b left hleft with hlater | ⟨rfl, hlater⟩
    · exact .inl fun tail => by simpa only [hkept, Option.bind_some] using hlater tail
    · exact .inr ⟨rfl, fun tail htail => by
        simpa only [hkept, Option.bind_some] using hlater tail htail⟩
  · obtain rfl : left = [] := List.eq_nil_of_length_eq_zero (Nat.le_zero.mp (hnil a b left hleft))
    exact .inr ⟨rfl, fun tail htail => by simpa only [htaken tail htail, Option.bind_some]⟩

/-- A step in between that reads nothing. -/
theorem compute {first : Option β} {onward : β → List Char → Option (α × List Char)}
    (honward : ∀ b, Extends (onward b) text) :
    Extends (fun text => first.bind fun b => onward b text) text := by
  cases first with
  | none => exact of_eq_none rfl
  | some b => exact honward b

theorem map {change : α → β} (hread : Extends read text) :
    Extends (fun text => (read text).map fun found => (change found.1, found.2)) text := by
  intro b left hleft
  obtain ⟨⟨a, left⟩, hfirst, heq⟩ := Option.map_eq_some_iff.mp hleft
  cases heq
  rcases hread a _ hfirst with hkept | ⟨rfl, htaken⟩
  · exact .inl fun tail => by simp only [hkept, Option.map_some]
  · exact .inr ⟨rfl, fun tail htail => by simp only [htaken tail htail, Option.map_some]⟩

theorem ite {condition : Prop} [Decidable condition]
    {other : List Char → Option (α × List Char)} (hread : condition → Extends read text)
    (hother : ¬condition → Extends other text) :
    Extends (fun text => if condition then read text else other text) text := by
  by_cases hcondition : condition
  · simpa only [if_pos hcondition] using hread hcondition
  · simpa only [if_neg hcondition] using hother hcondition

/-- A reader that starts behind a character. -/
theorem cons {c : Char} {rest : List Char}
    (hread : Extends (fun rest => read (c :: rest)) rest) : Extends read (c :: rest) := hread

/-- A reader that starts behind blanks. -/
theorem skip {flags : Flags} (hread : Extends read (flags.skip text))
    (hnil : LeavesAtMost 0 (read [])) : Extends (fun text => read (flags.skip text)) text := by
  intro a left hleft
  cases hskip : flags.skip text with
  | cons c rest =>
      rw [hskip] at hread
      simp only [hskip] at hleft
      simp only [flags.skip_append hskip]
      exact hread a left hleft
  | nil =>
      rw [hskip] at hread
      simp only [hskip] at hleft
      rcases flags.skip_of_eq_nil hskip with hkept | htaken
      · simp only [hkept]
        exact hread a left hleft
      · obtain rfl : left = [] := List.eq_nil_of_length_eq_zero (Nat.le_zero.mp (hnil a left hleft))
        exact .inr ⟨rfl, fun tail htail => by simpa only [htaken tail htail]⟩

/-- What is found is followed by blanks. -/
theorem found (a : α) (flags : Flags) (text : List Char) :
    Extends (fun text => some (a, flags.skip text)) text :=
  @skip _ (fun text => some (a, text)) text flags
    (of_append fun _ _ hread _ => by cases hread; rfl) (.some (Nat.le_refl _))

/-- What the reader does with the text is what another one does with a part of it. -/
theorem congr {other : List Char → Option (α × List Char)} {part : List Char}
    (hother : Extends other part) (htext : read text = other part)
    (hmore : ∀ tail, read (text ++ ')' :: tail) = other (part ++ ')' :: tail)) :
    Extends read text := by
  intro a left hleft
  simp only [hmore]
  exact hother a left (htext ▸ hleft)

theorem congr_append {other : List Char → Option (α × List Char)} {part : List Char}
    (hother : Extends other part) (hread : ∀ more, read (text ++ more) = other (part ++ more)) :
    Extends read text := by
  refine congr hother ?_ fun _ => hread _
  have htext := hread []
  rwa [List.append_nil, List.append_nil] at htext

/-- What the reader does behind blanks is what another one does behind the next character. -/
theorem of_skip_cons {flags : Flags} {c : Char} {rest : List Char}
    (hskip : flags.skip text = c :: rest) {other : List Char → Option (α × List Char)}
    (hother : Extends other rest)
    (hread : ∀ text rest, flags.skip text = c :: rest → read text = other rest) :
    Extends read text :=
  congr hother (hread _ _ hskip) fun _ => hread _ _ (flags.skip_append hskip _)

end Extends

/-! ## Escapes -/

section Readers

variable {flags : Flags} {text left : List Char}

theorem readHexDigits_extends (count value : Nat) (text : List Char) :
    Extends (readHexDigits flags count value) text := by
  induction count generalizing value text with
  | zero => exact .of_append fun _ _ hread _ => by cases hread; rfl
  | succ count ih =>
      cases text with
      | nil => exact .of_eq_none rfl
      | cons c rest =>
          exact .cons (.compute fun digit =>
            .skip (ih _ _) (readHexDigits_leaves (Nat.le_refl _) _ _))

theorem readBraced_append {fuel enough : Nat} {inner : List Char} (hfuel : fuel ≤ enough)
    (hread : readBraced flags fuel text = some (inner, left)) (more : List Char) :
    readBraced flags enough (text ++ more) = some (inner, left ++ more) := by
  induction fuel generalizing enough text inner with
  | zero => cases hread
  | succ fuel ih =>
      obtain ⟨enough, rfl⟩ : ∃ less, enough = less + 1 := ⟨enough - 1, by omega⟩
      rw [readBraced] at hread ⊢
      cases hskip : flags.skip text with
      | nil =>
          rw [hskip] at hread
          cases hread
      | cons c rest =>
          rw [flags.skip_append hskip]
          rw [hskip] at hread
          by_cases hc : c = '\x7d'
          · subst hc
            cases hread
            rfl
          · simp only [List.cons_append, bind] at hread ⊢
            obtain ⟨⟨later, after⟩, hlater, heq⟩ := Option.bind_eq_some_iff.mp hread
            cases heq
            rw [ih (by omega) hlater]
            rfl

theorem readBraced_extends (text : List Char) :
    Extends (fun text => readBraced flags text.length.succ text) text :=
  .of_append fun _ _ hread _ => readBraced_append (by simp) hread _

/-- The character whose number stands in braces, after the opening one. -/
def readBracedHex (flags : Flags) (rest : List Char) : Option (Char × List Char) := do
  let (inner, rest) ← readBraced flags rest.length.succ rest
  let values ← inner.mapM hexValue?
  if values.isEmpty then none
  let c ← scalar? (values.foldl (fun value digit => value * 16 + digit) 0)
  some (c, flags.skip rest)

/-- The character whose number has the given number of digits. -/
def readPlainHex (flags : Flags) (digits : Nat) (text : List Char) :
    Option (Char × List Char) := do
  let (code, rest) ← readHexDigits flags digits 0 text
  let c ← scalar? code
  if !flags.unicode && digits == 2 && 0x7f < code then none
  some (c, rest)

theorem readHex_of_brace {digits : Nat} {rest : List Char}
    (hskip : flags.skip text = '\x7b' :: rest) :
    readHex flags digits text = readBracedHex flags rest := by
  rw [readHex, hskip]
  rfl

theorem readHex_of_ne_brace {digits : Nat} {c : Char} {rest : List Char}
    (hskip : flags.skip text = c :: rest) (hc : c ≠ '\x7b') :
    readHex flags digits text = readPlainHex flags digits (c :: rest) := by
  rw [readHex, hskip]
  split
  · rename_i heq
    cases heq
    exact absurd rfl hc
  · rfl

theorem readBracedHex_extends (text : List Char) : Extends (readBracedHex flags) text := by
  refine .bind (readBraced_extends text) (fun inner left _ => .compute fun values => ?_)
    fun _ => .compute fun _ => .ite .none
      (.compute fun _ => .some (flags.length_skip_le (Nat.le_refl 0)))
  exact .ite (fun _ => .of_eq_none rfl) fun _ => .compute fun c => .found c flags left

theorem readPlainHex_extends (digits : Nat) (text : List Char) :
    Extends (readPlainHex flags digits) text := by
  refine .bind (readHexDigits_extends _ _ _) (fun code left _ => .compute fun c => ?_)
    fun _ => .compute fun _ => .ite .none (.some (Nat.le_refl _))
  exact .ite (fun _ => .of_eq_none rfl)
    fun _ => .of_append fun _ _ hread _ => by cases hread; rfl

theorem readHex_extends (digits : Nat) (text : List Char) :
    Extends (readHex flags (digits + 1)) text := by
  cases hskip : flags.skip text with
  | nil =>
      refine .of_eq_none ?_
      rw [readHex, hskip]
      rfl
  | cons c rest =>
      by_cases hc : c = '\x7b'
      · subst hc
        exact .of_skip_cons hskip (readBracedHex_extends rest) fun _ _ => readHex_of_brace
      · exact .of_skip_cons hskip (readPlainHex_extends _ (c :: rest)) fun _ _ hskip =>
          readHex_of_ne_brace hskip hc

/-- The property whose name stands in braces, after the opening one. -/
def readBracedProperty (flags : Flags) (negated : Bool) (rest : List Char) :
    Option (CharSet × List Char) := do
  let (name, rest) ← readBraced flags rest.length.succ rest
  let (set, opposite) ← bracedProperty? name
  some (if negated != opposite then .compl (flags.fold set) else flags.fold set, rest)

/-- The property that a letter names. -/
def readLetterProperty (flags : Flags) (negated : Bool) (c : Char) (rest : List Char) :
    Option (CharSet × List Char) := do
  let set ← propertyNamed? [c]
  some (if negated then .compl (flags.fold set) else flags.fold set, flags.skip rest)

theorem readProperty_extends (negated : Bool) (text : List Char) :
    Extends (readProperty flags negated) text := by
  cases hunicode : flags.unicode with
  | false => exact .of_eq_none (by simp [readProperty, hunicode])
  | true =>
      cases hskip : flags.skip text with
      | nil => exact .of_eq_none (by simp [readProperty, hunicode, hskip])
      | cons c rest =>
          by_cases hbrace : c = '\x7b'
          · subst hbrace
            have hnamed : Extends (readBracedProperty flags negated) rest :=
              .bind (readBraced_extends rest)
                (fun name left _ => .compute fun property =>
                  .of_append fun _ _ hread _ => by cases hread; rfl)
                fun _ => .compute fun _ => .some (Nat.le_refl _)
            refine .of_skip_cons hskip hnamed fun text rest hskip => ?_
            simp only [readProperty, hunicode, hskip, readBracedProperty, Bool.not_true, if_false,
              Bool.false_eq_true]
          · by_cases hescape : c = '\\'
            · subst hescape
              exact .of_eq_none (by simp [readProperty, hunicode, hskip])
            · have hletter : Extends (readLetterProperty flags negated c) rest :=
                .compute fun set => .found _ flags rest
              refine .of_skip_cons hskip hletter fun text rest hskip => ?_
              simp only [readProperty, hunicode, hskip, readLetterProperty, Bool.not_true, if_false,
                Bool.false_eq_true]

theorem readBoundary_of_ne_brace {c : Char} (hc : c ≠ '\x7b') (rest : List Char) :
    readBoundary flags (c :: rest) = some (.wordEdge (!flags.unicode), c :: rest) := by
  unfold readBoundary
  split
  · rename_i heq
    exact absurd (List.cons.inj heq).1 hc
  · rfl

theorem readBoundary_extends (text : List Char) : Extends (readBoundary flags) text := by
  cases text with
  | nil =>
      rintro edge left hread
      cases hread
      exact .inl fun tail => rfl
  | cons c rest =>
      refine .of_append fun edge left hread more => ?_
      by_cases hbrace : c = '\x7b'
      · subst hbrace
        unfold readBoundary at hread ⊢
        dsimp only [List.cons_append] at hread ⊢
        cases hskip : flags.skip rest with
        | nil =>
            simp only [hskip] at hread
            cases hread
        | cons first others =>
            simp only [flags.skip_append hskip, List.cons_append]
            simp only [hskip] at hread
            split at hread
            · rw [if_pos ‹_›]
              obtain ⟨⟨name, after⟩, hname, hread⟩ := Option.bind_eq_some_iff.mp hread
              obtain ⟨condition, hcondition, hread⟩ := Option.bind_eq_some_iff.mp hread
              cases hread
              have hlength : rest.length.succ ≤ (rest ++ more).length.succ := by simp
              simp only [readBraced_append hlength hname, hcondition, bind, Option.bind_some]
            · rw [if_neg ‹_›]
              cases hread
              rfl
      · rw [readBoundary_of_ne_brace hbrace] at hread
        cases hread
        exact readBoundary_of_ne_brace hbrace _

theorem readEscape_extends (text : List Char) : Extends (readEscape flags) text := by
  cases text with
  | nil => exact .of_eq_none rfl
  | cons c rest =>
      have hkept (a : Atom) (text : List Char) : Extends (fun text => some (a, text)) text :=
        .of_append fun _ _ hread _ => by cases hread; rfl
      refine .cons ?_
      unfold readEscape
      dsimp only
      split
      all_goals first
        | exact hkept _ rest
        | exact .map (readHex_extends _ rest)
        | exact .map (readProperty_extends _ rest)
        | exact .map (readBoundary_extends rest)
        | skip
      refine .ite (fun _ => hkept _ rest) fun _ => ?_
      cases letterClass? flags c with
      | none => exact .of_eq_none rfl
      | some set => exact hkept _ rest

end Readers

end RequestRouting.Regex
