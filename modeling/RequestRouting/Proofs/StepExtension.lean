import RequestRouting.Proofs.ClassExtension

/-!
# Steps in front of a closing parenthesis

A step reads a class, an escape, a mark that opens a group, or a repetition. What it reads of a text
that stands in a group is what it reads of the text by itself (`step_extends`).
-/

namespace RequestRouting.Regex

variable {flags : Flags} {text left : List Char}

/-! ## Groups -/

theorem readFlags_append {seen : List Char} {negated dangling : Bool}
    {found : Flags × Bool × Char × List Char}
    (hread : readFlags flags seen negated dangling text = some found) (more : List Char) :
    readFlags flags seen negated dangling (text ++ more) =
      some (found.1, found.2.1, found.2.2.1, found.2.2.2 ++ more) := by
  induction text generalizing flags seen negated dangling with
  | nil => cases hread
  | cons c rest ih =>
      rw [List.cons_append, readFlags]
      rw [readFlags] at hread
      split at hread
      · rw [if_pos ‹_›]
        split at hread
        · cases hread
        · rw [if_neg ‹_›]
          cases hread
          rfl
      · rw [if_neg ‹_›]
        split at hread
        · rw [if_pos ‹_›]
          split at hread
          · cases hread
          · rw [if_neg ‹_›]
            exact ih hread
        · rw [if_neg ‹_›]
          split at hread
          · cases hread
          · rw [if_neg ‹_›]
            obtain ⟨later, hlater, hread⟩ := Option.bind_eq_some_iff.mp hread
            rw [hlater]
            exact ih hread

theorem readGroupName_extends (first : Bool) (text : List Char) :
    Extends (readGroupName first) text := by
  induction text generalizing first with
  | nil => exact .of_eq_none rfl
  | cons c rest ih =>
      have hkept (a : List Char) : Extends (fun text => some (a, text)) rest :=
        .of_append fun _ _ hread _ => by cases hread; rfl
      exact .cons (.ite (fun _ => hkept []) fun _ =>
        .ite (fun _ => .map (ih false)) fun _ => .of_eq_none rfl)

theorem openNamed_extends (state : Reading) (text : List Char) :
    Extends (openNamed state) text :=
  .bind (readGroupName_extends true text)
    (fun _ _ _ => .ite (fun _ => .of_eq_none rfl) fun _ =>
      .of_append fun _ _ hread _ => by cases hread; rfl)
    fun _ => .ite .none (.some (Nat.le_refl _))

/-- The flags of a group, after its question mark. -/
def readFlagged (state : Reading) (text : List Char) : Option (Reading × List Char) := do
  let (flags, given, stop, rest) ← readFlags state.flags [] false false text
  if stop == ':' then some (state.openGroup .plain flags, rest)
  else if given then some ({ state with flags }.push ⟨.empty, 0, true⟩, rest)
  else none

theorem readFlagged_extends (state : Reading) (text : List Char) :
    Extends (readFlagged state) text := by
  refine .of_append fun next left hread more => ?_
  obtain ⟨⟨flags, given, stop, rest⟩, hflags, hread⟩ := Option.bind_eq_some_iff.mp hread
  simp only [readFlagged, readFlags_append hflags, bind, Option.bind_some]
  dsimp only at hread
  split at hread
  · rw [if_pos ‹_›]
    cases hread
    rfl
  · rw [if_neg ‹_›]
    split at hread
    · rw [if_pos ‹_›]
      cases hread
      rfl
    · cases hread

/-- What a group starts with after a question mark. -/
def readMarked (state : Reading) : List Char → Option (Reading × List Char)
  | '=' :: _ => none
  | '!' :: _ => none
  | '<' :: '=' :: _ => none
  | '<' :: '!' :: _ => none
  | 'P' :: '<' :: rest => openNamed state rest
  | '<' :: rest => openNamed state rest
  | rest => readFlagged state rest

theorem readGroup_of_mark {state : Reading} {rest : List Char}
    (hskip : state.flags.skip text = '?' :: rest) :
    readGroup state text = readMarked state rest := by
  rw [readGroup, hskip]
  fun_cases readMarked state rest with
  | case7 => simp [readFlagged, *]
  | case1 | case2 | case3 | case4 | case5 | case6 => simp [*]

theorem readMarked_of_angle {state : Reading} {c : Char} (hequals : c ≠ '=') (hbang : c ≠ '!')
    (rest : List Char) : readMarked state ('<' :: c :: rest) = openNamed state (c :: rest) := by
  simp [readMarked, hequals, hbang]

theorem readMarked_of_flags {state : Reading} {c : Char} {rest : List Char} (hequals : c ≠ '=')
    (hbang : c ≠ '!') (hangle : c ≠ '<') (hnamed : c = 'P' → ∀ others, rest ≠ '<' :: others) :
    readMarked state (c :: rest) = readFlagged state (c :: rest) := by
  unfold readMarked
  split
  all_goals first
    | rfl
    | (rename_i heq
       cases heq
       first
         | exact absurd rfl hequals
         | exact absurd rfl hbang
         | exact absurd rfl hangle
         | exact absurd rfl (hnamed rfl _))

theorem readMarked_extends (state : Reading) (text : List Char) :
    Extends (readMarked state) text := by
  fun_cases readMarked state text with
  | case1 | case2 | case3 | case4 => exact .of_eq_none rfl
  | case5 rest => exact .cons (.cons (openNamed_extends state rest))
  | case6 rest hequals hbang =>
      cases rest with
      | nil => exact .of_eq_none rfl
      | cons c rest =>
          have hequals : c ≠ '=' := fun heq => hequals rest (by rw [heq])
          have hbang : c ≠ '!' := fun heq => hbang rest (by rw [heq])
          exact .congr_append (openNamed_extends state (c :: rest)) fun more =>
            readMarked_of_angle hequals hbang _
  | case7 text hequals hbang _ _ hnamed hangle =>
      cases text with
      | nil => exact .of_eq_none rfl
      | cons c rest =>
          have hequals : c ≠ '=' := fun heq => hequals rest (by rw [heq])
          have hbang : c ≠ '!' := fun heq => hbang rest (by rw [heq])
          have hangle : c ≠ '<' := fun heq => hangle rest (by rw [heq])
          by_cases hshort : c = 'P' ∧ rest = []
          · obtain ⟨rfl, rfl⟩ := hshort
            exact .of_eq_none rfl
          · refine .congr_append (readFlagged_extends state (c :: rest)) fun more =>
              readMarked_of_flags hequals hbang hangle ?_
            rintro rfl others heq
            cases rest with
            | nil => exact hshort ⟨rfl, rfl⟩
            | cons d rest =>
                obtain ⟨rfl, _⟩ := List.cons.inj heq
                exact hnamed rest rfl

theorem readGroup_of_ne_mark {state : Reading}
    (hskip : ∀ rest, state.flags.skip text ≠ '?' :: rest) :
    readGroup state text =
      some ({ state with groups := state.groups + 1 }.openGroup
        (.capturing (state.groups + 1) none) state.flags, state.flags.skip text) := by
  rw [readGroup]
  split
  all_goals first
    | exact absurd ‹_› (hskip _)
    | rfl

theorem readGroup_extends (state : Reading) (text : List Char) :
    Extends (readGroup state) text := by
  by_cases hmark : ∃ rest, state.flags.skip text = '?' :: rest
  · obtain ⟨rest, hskip⟩ := hmark
    exact .of_skip_cons hskip (readMarked_extends state rest) fun _ _ => readGroup_of_mark
  · have hplain (rest : List Char) : state.flags.skip text ≠ '?' :: rest :=
      fun heq => hmark ⟨rest, heq⟩
    intro next left hread
    rw [readGroup_of_ne_mark hplain] at hread
    cases hread
    rcases Extends.found () state.flags text _ _ rfl with hkept | ⟨hnil, htaken⟩
    · refine .inl fun tail => ?_
      have hskip : state.flags.skip (text ++ ')' :: tail) = state.flags.skip text ++ ')' :: tail :=
        congrArg Prod.snd (Option.some.inj (hkept tail))
      rw [readGroup_of_ne_mark, hskip]
      intro rest heq
      rw [hskip] at heq
      cases hfirst : state.flags.skip text with
      | nil =>
          rw [hfirst] at heq
          cases heq
      | cons c others =>
          rw [hfirst] at heq
          exact hplain others (by rw [hfirst, (List.cons.inj heq).1])
    · refine .inr ⟨hnil, fun tail htail => ?_⟩
      have hskip : state.flags.skip (text ++ ')' :: tail) = [] :=
        congrArg Prod.snd (Option.some.inj (htaken tail htail))
      rw [readGroup_of_ne_mark (by rw [hskip]; nofun), hskip]

/-! ## Repetitions -/

theorem readDigits_eq {fuel : Nat} (hfuel : text.length ≤ fuel) (value : Option Nat) :
    readDigits flags fuel value text = readDigits flags text.length value text := by
  induction fuel using Nat.strongRecOn generalizing text value with
  | ind fuel ih =>
      cases text with
      | nil => cases fuel <;> rfl
      | cons c rest =>
          obtain ⟨fuel, rfl⟩ : ∃ less, fuel = less + 1 := ⟨fuel - 1, by simp at hfuel; omega⟩
          have hrest : rest.length ≤ fuel := Nat.le_of_succ_le_succ hfuel
          have hlength := flags.length_skip_le (Nat.le_refl rest.length)
          simp only [List.length_cons, readDigits]
          rw [ih fuel (Nat.lt_succ_self _) (Nat.le_trans hlength hrest)]
          rw [ih rest.length (Nat.lt_succ_of_le hrest) hlength]

/-- The digits at the start of a text. -/
def readNumber (flags : Flags) (value : Option Nat) (text : List Char) :
    Option (Option Nat × List Char) :=
  some (readDigits flags text.length value text)

theorem readNumber_of_digit {c : Char} (hc : c.isDigit = true) (value : Option Nat)
    (rest : List Char) :
    readNumber flags value (c :: rest) =
      readNumber flags (some (value.getD 0 * 10 + (c.toNat - '0'.toNat))) (flags.skip rest) := by
  have hlength := flags.length_skip_le (Nat.le_refl rest.length)
  simp only [readNumber, List.length_cons, readDigits, hc, if_true, readDigits_eq hlength]

theorem readNumber_of_not_digit {c : Char} (hc : c.isDigit = false) (value : Option Nat)
    (rest : List Char) : readNumber flags value (c :: rest) = some (value, c :: rest) := by
  simp only [readNumber, List.length_cons, readDigits, hc, Bool.false_eq_true, if_false]

theorem readNumber_extends (value : Option Nat) (text : List Char) :
    Extends (readNumber flags value) text := by
  induction hlength : text.length using Nat.strongRecOn generalizing text value with
  | ind length ih =>
      cases text with
      | nil =>
          rintro found left hread
          cases hread
          exact .inl fun tail => readNumber_of_not_digit (by decide) value tail
      | cons c rest =>
          rw [List.length_cons] at hlength
          have hrest := flags.length_skip_le (Nat.le_refl rest.length)
          cases hc : c.isDigit with
          | true =>
              have hlater := ih (flags.skip rest).length (by omega)
                (some (value.getD 0 * 10 + (c.toNat - '0'.toNat))) _ rfl
              refine .congr_append (.skip hlater (.some (Nat.le_refl _))) fun more => ?_
              exact readNumber_of_digit hc value _
          | false =>
              refine .of_append fun found left hread more => ?_
              rw [readNumber_of_not_digit hc] at hread
              cases hread
              exact readNumber_of_not_digit hc value _

/-- A bound behind the blanks before it. -/
def readValue (flags : Flags) (text : List Char) : Option (Nat × List Char) := do
  let (value, rest) ← readNumber flags none text
  let value ← value
  if value < Nat.pow 2 32 then some (value, flags.skip (rest.dropWhile Text.isBlank)) else none

theorem readBound_eq (flags : Flags) (text : List Char) :
    readBound flags text = readValue flags (text.dropWhile Text.isBlank) := by
  simp only [readBound, readValue, readNumber, bind, Option.bind_some]
  split <;> rename_i heq <;> rw [heq] <;> rfl

theorem readValue_extends (text : List Char) : Extends (readValue flags) text := by
  unfold readValue
  refine .bind (readNumber_extends none text) (fun found left _ => ?_) ?_
  · refine .compute fun value => .ite (fun _ => ?_) fun _ => .of_eq_none rfl
    exact .congr (.found value flags (left.dropWhile Text.isBlank)) rfl fun tail => by
      rw [dropWhile_isBlank_append]
  · exact fun _ => .compute fun _ => .ite (.some (flags.length_skip_le (Nat.le_refl 0))) .none

theorem readBound_extends (text : List Char) : Extends (readBound flags) text :=
  .congr (readValue_extends (text.dropWhile Text.isBlank)) (readBound_eq flags text) fun tail => by
    rw [readBound_eq, dropWhile_isBlank_append]

/-- The brace that closes the bounds of a repetition. -/
def readClosing (most : Nat) : List Char → Option (Option Nat × List Char)
  | '\x7d' :: rest => some (some most, rest)
  | _ => none

/-- The upper bound of a repetition, behind the comma, and the brace that closes it. -/
def readMost (flags : Flags) (text : List Char) : Option (Option Nat × List Char) :=
  match flags.skip text with
  | '\x7d' :: rest => some (none, rest)
  | later => do
      let (most, rest) ← readBound flags later
      readClosing most rest

/-- What follows the lower bound of a repetition, up to the brace that closes it. -/
def readUpper (flags : Flags) (least : Nat) : List Char → Option (Option Nat × List Char)
  | ',' :: rest => readMost flags rest
  | rest => readClosing least rest

/-- A repetition with the given bounds, behind the brace that closes them. -/
def readRepeat (state : Reading) (least : Nat) (most : Option Nat) (text : List Char) :
    Option (Reading × List Char) := do
  let state ← state.repeatLast least most (readLazy text).1
  some (state, (readLazy text).2)

theorem readClosing_eq_none {most : Nat} (htext : ∀ rest, text ≠ '\x7d' :: rest) :
    readClosing most text = none := by
  unfold readClosing
  split
  · exact absurd rfl (htext _)
  · rfl

theorem readClosing_of_ne_brace {most : Nat} {c : Char} (hc : c ≠ '\x7d') (rest : List Char) :
    readClosing most (c :: rest) = none :=
  readClosing_eq_none fun _ heq => hc (List.cons.inj heq).1

theorem readMost_of_ne_brace {c : Char} {rest : List Char} (hskip : flags.skip text = c :: rest)
    (hc : c ≠ '\x7d') :
    readMost flags text = (do
      let (most, rest) ← readBound flags (c :: rest)
      readClosing most rest) := by
  simp [readMost, hskip, hc]

theorem readUpper_of_ne_comma {least : Nat} {c : Char} (hc : c ≠ ',') (rest : List Char) :
    readUpper flags least (c :: rest) = readClosing least (c :: rest) := by
  simp [readUpper, hc]

theorem readCounted_eq (state : Reading) (text : List Char) :
    readCounted state text = (do
      let (least, rest) ← readBound state.flags (state.flags.skip text)
      let (most, rest) ← readUpper state.flags least rest
      if most.any (· < least) then none
      readRepeat state least most (state.flags.skip rest)) := by
  -- However the upper bound is given, what follows the brace is the same.
  unfold readCounted
  refine congrArg (Option.bind _) (funext fun (least, rest) => ?_)
  dsimp only
  rcases rest with _ | ⟨c, rest⟩
  · rfl
  · by_cases hcomma : c = ','
    · subst hcomma
      have hmost : readUpper state.flags least (',' :: rest) = readMost state.flags rest := rfl
      rw [hmost]
      cases hskip : state.flags.skip rest with
      | nil =>
          simp only [readMost, hskip]
          rfl
      | cons d later =>
          by_cases hd : d = '\x7d'
          · subst hd
            simp only [readMost, hskip]
            rfl
          · rw [readMost_of_ne_brace hskip hd]
            simp only [hskip]
            split
            · exact absurd (List.cons.inj ‹_›).1 hd
            · cases readBound state.flags (d :: later) with
              | none => rfl
              | some found =>
                  obtain ⟨most, rest⟩ := found
                  simp only [bind, Option.bind_some]
                  split
                  · rfl
                  · rename_i hbrace
                    rw [readClosing_eq_none hbrace]
                    rfl
    · rw [readUpper_of_ne_comma hcomma]
      by_cases hbrace : c = '\x7d'
      · subst hbrace
        rfl
      · rw [readClosing_of_ne_brace hbrace]
        simp [hcomma, hbrace]

theorem readClosing_extends (most : Nat) (text : List Char) :
    Extends (readClosing most) text := by
  cases text with
  | nil => exact .of_eq_none rfl
  | cons c rest =>
      by_cases hc : c = '\x7d'
      · subst hc
        exact .of_append fun _ _ hread _ => by cases hread; rfl
      · exact .of_eq_none (readClosing_of_ne_brace hc rest)

theorem readMost_extends (text : List Char) : Extends (readMost flags) text := by
  cases hskip : flags.skip text with
  | nil =>
      refine .of_eq_none ?_
      simp only [readMost, hskip]
      rfl
  | cons c rest =>
      by_cases hc : c = '\x7d'
      · subst hc
        have hclosed : Extends (fun rest => some ((none : Option Nat), rest)) rest :=
          .of_append fun _ _ hread _ => by cases hread; rfl
        refine .of_skip_cons hskip hclosed fun text rest hskip => ?_
        simp only [readMost, hskip]
      · have hbound : Extends (fun rest => do
            let (most, rest) ← readBound flags (c :: rest)
            readClosing most rest) rest :=
          .bind (.cons (readBound_extends (c :: rest)))
            (fun most left _ => readClosing_extends most left) fun _ => .none
        exact .of_skip_cons hskip hbound fun _ _ hskip => readMost_of_ne_brace hskip hc

theorem readUpper_extends (least : Nat) (text : List Char) :
    Extends (readUpper flags least) text := by
  cases text with
  | nil => exact .of_eq_none rfl
  | cons c rest =>
      by_cases hc : c = ','
      · subst hc
        exact .cons (readMost_extends rest)
      · exact .congr_append (readClosing_extends least (c :: rest)) fun more =>
          readUpper_of_ne_comma hc _

theorem readLazy_append (text tail : List Char) :
    readLazy (text ++ ')' :: tail) = ((readLazy text).1, (readLazy text).2 ++ ')' :: tail) := by
  cases text with
  | nil => rfl
  | cons c rest =>
      by_cases hc : c = '?'
      · subst hc
        rfl
      · simp [readLazy, hc]

theorem readRepeat_extends (state : Reading) (least : Nat) (most : Option Nat) (text : List Char) :
    Extends (readRepeat state least most) text := by
  intro next left hread
  refine .inl fun tail => ?_
  obtain ⟨later, hlater, hread⟩ := Option.bind_eq_some_iff.mp hread
  cases hread
  simp only [readRepeat, readLazy_append, hlater, bind, Option.bind_some]

theorem readRepeat_leaves (state : Reading) (least : Nat) (most : Option Nat) :
    LeavesAtMost 0 (readRepeat state least most []) :=
  .compute fun _ => .some (Nat.le_refl _)

theorem readCounted_extends (state : Reading) (text : List Char) :
    Extends (readCounted state) text := by
  have hleast : Extends (fun text => readBound state.flags (state.flags.skip text)) text :=
    .skip (readBound_extends _) (readBound_leaves (Nat.le_refl _))
  have hrepeat (least : Nat) (most : Option Nat) (text : List Char) :
      Extends (fun text => readRepeat state least most (state.flags.skip text)) text :=
    .skip (readRepeat_extends state least most _) (readRepeat_leaves state least most)
  have hread : Extends (fun text => (do
      let (least, rest) ← readBound state.flags (state.flags.skip text)
      let (most, rest) ← readUpper state.flags least rest
      if most.any (· < least) then none
      readRepeat state least most (state.flags.skip rest))) text := by
    refine .bind hleast (fun least left _ => .bind (readUpper_extends least left)
      (fun most left _ => ?_) fun most => ?_) fun _ => .none
    · exact .ite (fun _ => .of_eq_none rfl) fun _ => hrepeat least most left
    · refine .ite .none ?_
      rw [state.flags.skip_nil]
      exact readRepeat_leaves state least most
  exact .congr hread (readCounted_eq state text) fun tail => readCounted_eq state _

theorem step_extends (state : Reading) (c : Char) (text : List Char) :
    Extends (step state c) text := by
  have hkept {α : Type} (a : α) : Extends (fun text => some (a, text)) text :=
    .of_append fun _ _ hread _ => by cases hread; rfl
  have hcomputed {α β : Type} (first : Option α) (change : α → β) :
      Extends (fun text => first.map fun a => (change a, text)) text := by
    cases first with
    | none => exact .of_eq_none rfl
    | some a => exact hkept (change a)
  unfold step
  dsimp only
  split
  · exact readGroup_extends state text
  · exact hcomputed state.closeGroup id
  · exact hkept _
  · exact @Extends.map _ _ _ _ (fun cls => state.push ⟨.chars cls.set, cls.depth, false⟩)
      (readClass_extends text)
  · exact readRepeat_extends state 0 (some 1) text
  · exact readRepeat_extends state 0 none text
  · exact readRepeat_extends state 1 none text
  · exact readCounted_extends state text
  · exact @Extends.map _ _ _ _ (fun atom => state.push ⟨atom.node state.flags, 0, false⟩)
      (readEscape_extends text)
  · exact hcomputed (dot? state.flags) _
  all_goals exact hkept _

end RequestRouting.Regex
