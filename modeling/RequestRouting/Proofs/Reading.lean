import RequestRouting.Pattern.Expression

/-!
# Reading expressions to the end

Expressions are read with fuel, one step for each character that is not skipped. No reader
leaves more than it was given (`LeavesAtMost`, with one lemma for each reader up to
`step_leaves`), so that as much fuel as there are characters is enough, and any more makes no
difference (`readFrom_eq_readFrom`). `readToEnd` is reading without fuel: it goes on after each
step with what that has left.

The expression of a pattern is that of its body between two anchors, which are read here once
for all bodies (`readToEnd_anchored`).
-/

namespace RequestRouting.Regex

/-! ## What is left of a text -/

/-- If reading has succeeded, at most the given number of characters is left. -/
def LeavesAtMost {α : Type} (bound : Nat) (result : Option (α × List Char)) : Prop :=
  ∀ a rest, result = some (a, rest) → rest.length ≤ bound

namespace LeavesAtMost

variable {α β : Type} {bound : Nat}

theorem none : LeavesAtMost bound (none : Option (α × List Char)) := nofun

theorem some {a : α} {rest : List Char} (hrest : rest.length ≤ bound) :
    LeavesAtMost bound (some (a, rest)) := by
  rintro _ _ ⟨⟩
  exact hrest

/-- One reader after another. -/
theorem bind {first : Option (α × List Char)} {onward : α × List Char → Option (β × List Char)}
    (hfirst : LeavesAtMost bound first)
    (honward : ∀ a rest, rest.length ≤ bound → LeavesAtMost bound (onward (a, rest))) :
    LeavesAtMost bound (first.bind onward) := by
  cases first with
  | none => exact none
  | some found => exact honward found.1 found.2 (hfirst _ _ rfl)

/-- A step in between that reads nothing. -/
theorem compute {first : Option α} {onward : α → Option (β × List Char)}
    (honward : ∀ a, LeavesAtMost bound (onward a)) : LeavesAtMost bound (first.bind onward) := by
  cases first with
  | none => exact none
  | some a => exact honward a

theorem map {first : Option (α × List Char)} {change : α × List Char → β × List Char}
    (hfirst : LeavesAtMost bound first) (hchange : ∀ found, (change found).2 = found.2) :
    LeavesAtMost bound (first.map change) := by
  cases first with
  | none => exact none
  | some found =>
      rintro _ _ heq
      have hrest := hchange found
      rw [Option.some.inj heq] at hrest
      exact Nat.le_trans (Nat.le_of_eq (congrArg List.length hrest)) (hfirst _ _ rfl)

theorem attach {first : Option α} {change : α → β} {rest : List Char}
    (hrest : rest.length ≤ bound) : LeavesAtMost bound (first.map fun a => (change a, rest)) := by
  cases first with
  | none => exact none
  | some a => exact some hrest

theorem ite {condition : Prop} [Decidable condition] {first second : Option (α × List Char)}
    (hfirst : LeavesAtMost bound first) (hsecond : LeavesAtMost bound second) :
    LeavesAtMost bound (if condition then first else second) := by
  split
  · exact hfirst
  · exact hsecond

end LeavesAtMost

theorem length_skipComment_le (text : List Char) : (skipComment text).length ≤ text.length := by
  fun_induction skipComment text <;> grind

theorem length_skipBlanksFrom_le (fuel : Nat) (text : List Char) :
    (skipBlanksFrom fuel text).length ≤ text.length := by
  fun_induction skipBlanksFrom fuel text with
  | case1 | case2 | case5 => exact Nat.le_refl _
  | case3 fuel c rest _ ih => grind
  | case4 fuel rest _ ih => grind [length_skipComment_le rest]

section Left

variable {flags : Flags} {text : List Char} {bound : Nat} (htext : text.length ≤ bound)

theorem length_le_of_eq_cons {c : Char} {rest : List Char} (htext : text.length ≤ bound)
    (heq : text = c :: rest) : rest.length ≤ bound := by
  subst heq
  exact Nat.le_of_succ_le htext

include htext

theorem Flags.length_skip_le : (flags.skip text).length ≤ bound := by
  refine Nat.le_trans ?_ htext
  unfold Flags.skip
  split
  · exact length_skipBlanksFrom_le _ _
  · exact Nat.le_refl _

theorem readHexDigits_leaves (count value : Nat) :
    LeavesAtMost bound (readHexDigits flags count value text) := by
  induction count generalizing value text with
  | zero => exact .some htext
  | succ count ih =>
      cases text with
      | nil => exact .none
      | cons c rest =>
          have hrest := flags.length_skip_le (length_le_of_eq_cons htext rfl)
          exact .compute fun digit => ih hrest _

theorem readBraced_leaves (fuel : Nat) : LeavesAtMost bound (readBraced flags fuel text) := by
  induction fuel generalizing text with
  | zero => exact .none
  | succ fuel ih =>
      have hskip := flags.length_skip_le htext
      rw [readBraced]
      split
      · exact .none
      · rename_i rest heq
        exact .some (length_le_of_eq_cons hskip heq)
      · rename_i c rest _ heq
        exact .bind (ih (length_le_of_eq_cons hskip heq)) fun _ _ hrest => .some hrest

theorem readHex_leaves (digits : Nat) : LeavesAtMost bound (readHex flags digits text) := by
  have hskip := flags.length_skip_le htext
  unfold readHex
  split
  · rename_i rest heq
    refine .bind (readBraced_leaves (length_le_of_eq_cons hskip heq) _) fun inner rest hrest => ?_
    refine .compute fun values => .ite .none (.compute fun c => .some ?_)
    exact flags.length_skip_le hrest
  · refine .bind (readHexDigits_leaves hskip _ _) fun code rest hrest => ?_
    exact .compute fun c => .ite .none (.some hrest)

theorem readProperty_leaves (negated : Bool) :
    LeavesAtMost bound (readProperty flags negated text) := by
  have hskip := flags.length_skip_le htext
  unfold readProperty
  refine .ite .none ?_
  dsimp only
  split
  · rename_i rest heq
    refine .bind (readBraced_leaves (length_le_of_eq_cons hskip heq) _) fun name rest hrest => ?_
    exact .compute fun property => .some hrest
  · exact .none
  · rename_i c rest _ _ heq
    exact .compute fun set => .some (flags.length_skip_le (length_le_of_eq_cons hskip heq))
  · exact .none

theorem readBoundary_leaves : LeavesAtMost bound (readBoundary flags text) := by
  unfold readBoundary
  dsimp only
  split
  · rename_i rest
    have hrest := length_le_of_eq_cons htext rfl
    split
    · exact .none
    · refine .ite ?_ (.some htext)
      refine .bind (readBraced_leaves hrest _) fun name rest hrest => ?_
      exact .compute fun edge => .some hrest
  · exact .some htext

theorem readEscape_leaves : LeavesAtMost bound (readEscape flags text) := by
  cases text with
  | nil => exact .none
  | cons c rest =>
      have hrest := length_le_of_eq_cons htext rfl
      unfold readEscape
      dsimp only
      split
      all_goals first
        | exact .some hrest
        | exact .map (readHex_leaves hrest _) fun _ => rfl
        | exact .map (readProperty_leaves hrest _) fun _ => rfl
        | exact .map (readBoundary_leaves hrest) fun _ => rfl
        | exact .ite (.some hrest) (.attach hrest)

theorem readHyphens_leaves (fuel : Nat) (cls : OpenClass) :
    LeavesAtMost bound (readHyphens flags fuel cls text) := by
  induction fuel generalizing cls text with
  | zero => exact .some htext
  | succ fuel ih =>
      rw [readHyphens.eq_def]
      dsimp only
      split
      · exact ih (flags.length_skip_le (length_le_of_eq_cons htext rfl)) _
      · exact .none
      · exact .some htext

theorem openClass_leaves : LeavesAtMost bound (openClass flags text) := by
  have hskip := flags.length_skip_le htext
  unfold openClass
  dsimp only
  split
  all_goals refine .bind (readHyphens_leaves ?_ _ _) fun cls rest hrest => ?_
  case h_1.refine_1 heq => exact flags.length_skip_le (length_le_of_eq_cons hskip heq)
  case h_2.refine_1 => exact hskip
  all_goals
    dsimp only
    split
    · exact .none
    · refine .ite ?_ (.some hrest)
      split
      · exact .none
      · exact .some (flags.length_skip_le (length_le_of_eq_cons hrest rfl))
    · exact .some hrest

theorem splitAtFirst_leaves (separator : List Char) :
    LeavesAtMost bound (splitAtFirst separator text) := by
  induction text with
  | nil => exact .none
  | cons c rest ih =>
      refine .ite (.some ?_) (.map (ih (length_le_of_eq_cons htext rfl)) fun _ => rfl)
      exact Nat.le_trans (by simp) htext

theorem readAsciiName_leaves (negated : Bool) : LeavesAtMost bound (readAsciiName negated text) := by
  unfold readAsciiName
  split
  · rename_i name rest hsplit
    exact .attach (length_le_of_eq_cons (splitAtFirst_leaves htext _ _ _ hsplit) rfl)
  · exact .none

theorem readAsciiClass_leaves : LeavesAtMost bound (readAsciiClass text) := by
  unfold readAsciiClass
  split
  · exact readAsciiName_leaves (length_le_of_eq_cons (length_le_of_eq_cons htext rfl) rfl) _
  · exact readAsciiName_leaves (length_le_of_eq_cons htext rfl) _
  · exact .none

theorem readAtom_leaves : LeavesAtMost bound (readAtom flags text) := by
  unfold readAtom
  split
  · exact .none
  · exact readEscape_leaves (length_le_of_eq_cons htext rfl)
  · exact .some (length_le_of_eq_cons htext rfl)

theorem readItem_leaves : LeavesAtMost bound (readItem flags text) := by
  refine .bind (readAtom_leaves htext) fun first rest hrest => ?_
  have hskip := flags.length_skip_le hrest
  dsimp only
  split
  · exact .none
  · rename_i tail heq
    refine .ite (.attach hskip) ?_
    refine .bind (readAtom_leaves ?_) fun last rest hrest => ?_
    · exact flags.length_skip_le (length_le_of_eq_cons hskip heq)
    · dsimp only
      split
      · exact .ite (.some hrest) .none
      · exact .none
  · exact .attach hskip

theorem readClassFrom_leaves (fuel : Nat) (outer : List OpenClass) (cls : OpenClass) :
    LeavesAtMost bound (readClassFrom flags fuel outer cls text) := by
  induction fuel generalizing outer cls text with
  | zero => exact .none
  | succ fuel ih =>
      have hskip := flags.length_skip_le htext
      -- Each of the operators is two characters.
      have hoperator {c : Char} {rest : List Char} (heq : flags.skip text = c :: c :: rest) :
          rest.length ≤ bound :=
        length_le_of_eq_cons (length_le_of_eq_cons hskip heq) rfl
      rw [readClassFrom]
      split
      · exact .none
      · rename_i rest heq
        have hrest := length_le_of_eq_cons hskip heq
        have hascii := readAsciiClass_leaves hrest
        split
        · rename_i named rest hread
          exact .compute fun item => ih (hascii _ _ hread) _ _
        · exact .bind (openClass_leaves hrest) fun _ _ hrest => ih hrest _ _
      · rename_i rest heq
        have hrest := length_le_of_eq_cons hskip heq
        refine .compute fun closed => ?_
        split
        · exact .some hrest
        · exact ih hrest _ _
      · exact ih (hoperator ‹_›) _ _
      · exact ih (hoperator ‹_›) _ _
      · exact ih (hoperator ‹_›) _ _
      · exact .bind (readItem_leaves hskip) fun _ _ hrest => ih hrest _ _

theorem readClass_leaves : LeavesAtMost bound (readClass flags text) :=
  .bind (openClass_leaves htext) fun _ _ hrest => readClassFrom_leaves hrest _ _ _

theorem readGroupName_leaves (first : Bool) : LeavesAtMost bound (readGroupName first text) := by
  induction text generalizing first with
  | nil => exact .none
  | cons c rest ih =>
      have hrest := length_le_of_eq_cons htext rfl
      exact .ite (.some hrest) (.ite (.map (ih hrest _) fun _ => rfl) .none)

theorem openNamed_leaves (state : Reading) : LeavesAtMost bound (openNamed state text) :=
  .bind (readGroupName_leaves htext true) fun _ _ hrest => .ite .none (.some hrest)

theorem readFlags_leaves (seen : List Char) (negated dangling : Bool) {result : Flags}
    {given : Bool} {stop : Char} {rest : List Char}
    (hread : readFlags flags seen negated dangling text = some (result, given, stop, rest)) :
    rest.length ≤ bound := by
  induction text generalizing flags seen negated dangling with
  | nil => cases hread
  | cons c text ih =>
      have hlater := length_le_of_eq_cons htext rfl
      rw [readFlags] at hread
      split at hread
      · split at hread <;> cases hread
        exact hlater
      · split at hread
        · split at hread
          · cases hread
          · exact ih hlater _ _ _ hread
        · split at hread
          · cases hread
          · obtain ⟨later, _, hread⟩ := Option.bind_eq_some_iff.mp hread
            exact ih hlater _ _ _ hread

theorem readGroup_leaves (state : Reading) : LeavesAtMost bound (readGroup state text) := by
  have hskip := state.flags.length_skip_le htext
  unfold readGroup
  split
  all_goals try exact .none
  · rename_i rest heq
    rw [heq] at hskip
    exact openNamed_leaves (by simp at hskip; omega) state
  · rename_i rest _ _ heq
    rw [heq] at hskip
    exact openNamed_leaves (by simp at hskip; omega) state
  · rename_i rest _ _ _ _ _ _ heq
    have hrest := length_le_of_eq_cons hskip heq
    rintro a left hread
    obtain ⟨⟨flags, given, stop, after⟩, hflags, hread⟩ := Option.bind_eq_some_iff.mp hread
    have hafter := readFlags_leaves hrest _ _ _ hflags
    dsimp only at hread
    split at hread
    · cases hread
      exact hafter
    · split at hread <;> cases hread
      exact hafter
  · exact .some hskip

theorem length_readDigits_le (fuel : Nat) (value : Option Nat) :
    (readDigits flags fuel value text).2.length ≤ bound := by
  induction fuel generalizing value text with
  | zero => exact htext
  | succ fuel ih =>
      rw [readDigits.eq_def]
      dsimp only
      split
      · split
        · exact ih (flags.length_skip_le (length_le_of_eq_cons htext rfl)) _
        · exact htext
      · exact htext

theorem readBound_leaves : LeavesAtMost bound (readBound flags text) := by
  have hblanks (text : List Char) (htext : text.length ≤ bound) :
      (text.dropWhile Text.isBlank).length ≤ bound :=
    Nat.le_trans (List.dropWhile_suffix _).length_le htext
  have hdigits (fuel : Nat) :
      (readDigits flags fuel none (text.dropWhile Text.isBlank)).2.length ≤ bound :=
    length_readDigits_le (hblanks text htext) fuel none
  unfold readBound
  dsimp only
  split
  · rename_i value rest hread
    have hrest := hdigits (text.dropWhile Text.isBlank).length
    rw [hread] at hrest
    exact .ite (.some (flags.length_skip_le (hblanks rest hrest))) .none
  · exact .none

theorem length_readLazy_le : (readLazy text).2.length ≤ bound := by
  unfold readLazy
  split
  · exact length_le_of_eq_cons htext rfl
  · exact htext

theorem readCounted_leaves (state : Reading) : LeavesAtMost bound (readCounted state text) := by
  have hskip := state.flags.length_skip_le htext
  refine .bind (readBound_leaves hskip) fun least rest hrest => ?_
  dsimp only
  split
  · have hafter := state.flags.length_skip_le (length_le_of_eq_cons hrest rfl)
    split
    · rename_i rest heq
      refine .bind (.some (length_le_of_eq_cons hafter heq)) fun most rest hrest => ?_
      exact .ite .none
        (.compute fun _ => .some (length_readLazy_le (state.flags.length_skip_le hrest)))
    · refine .bind (readBound_leaves hafter) fun most rest hrest => ?_
      dsimp only
      split
      · refine .bind (.some (length_le_of_eq_cons hrest rfl)) fun most rest hrest => ?_
        exact .ite .none
          (.compute fun _ => .some (length_readLazy_le (state.flags.length_skip_le hrest)))
      · exact .none
  · refine .bind (.some (length_le_of_eq_cons hrest rfl)) fun most rest hrest => ?_
    exact .ite .none
      (.compute fun _ => .some (length_readLazy_le (state.flags.length_skip_le hrest)))
  · exact .none

theorem step_leaves (state : Reading) (c : Char) : LeavesAtMost bound (step state c text) := by
  have hcounted (least : Nat) (most : Option Nat) :
      LeavesAtMost bound ((state.repeatLast least most (readLazy text).1).bind fun state =>
        some (state, (readLazy text).2)) :=
    .compute fun _ => .some (length_readLazy_le htext)
  unfold step
  extract_lets flags counted
  split
  · exact readGroup_leaves htext state
  · exact .attach htext
  · exact .some htext
  · exact .map (readClass_leaves htext) fun _ => rfl
  · exact hcounted _ _
  · exact hcounted _ _
  · exact hcounted _ _
  · exact readCounted_leaves htext state
  · exact .map (readEscape_leaves htext) fun _ => rfl
  · exact .attach htext
  all_goals exact .some htext

end Left

/-! ## Reading to the end -/

/-- Reads to the end of the text. -/
def readToEnd (state : Reading) (text : List Char) : Option Reading :=
  readFrom text.length state text

variable {state : Reading} {text : List Char}

theorem readFrom_of_skip_eq_nil (hskip : state.flags.skip text = []) (fuel : Nat) :
    readFrom fuel state text = some state := by
  cases fuel <;> simp [readFrom, hskip]

/-- Fuel for as many steps as there are characters is enough, as each step takes one. -/
theorem readFrom_eq_readFrom {fuel other : Nat} (hfuel : text.length ≤ fuel)
    (hother : text.length ≤ other) : readFrom fuel state text = readFrom other state text := by
  induction fuel generalizing state text other with
  | zero =>
      cases List.eq_nil_of_length_eq_zero (Nat.le_zero.mp hfuel)
      have hskip : state.flags.skip [] = [] :=
        List.eq_nil_of_length_eq_zero (Nat.le_zero.mp (state.flags.length_skip_le (Nat.le_refl _)))
      rw [readFrom_of_skip_eq_nil hskip, readFrom_of_skip_eq_nil hskip]
  | succ fuel ih =>
      cases hskip : state.flags.skip text with
      | nil => rw [readFrom_of_skip_eq_nil hskip, readFrom_of_skip_eq_nil hskip]
      | cons c rest =>
          have hlength := state.flags.length_skip_le (Nat.le_refl text.length)
          rw [hskip, List.length_cons] at hlength
          obtain ⟨other, rfl⟩ : ∃ less, other = less + 1 := ⟨other - 1, by omega⟩
          simp only [readFrom, hskip]
          cases hstep : step state c rest with
          | none => rfl
          | some found =>
              have hleft := step_leaves (Nat.le_refl _) state c _ _ hstep
              exact ih (by omega) (by omega)

theorem readToEnd_of_skip_eq_nil (hskip : state.flags.skip text = []) :
    readToEnd state text = some state :=
  readFrom_of_skip_eq_nil hskip _

/-- Reading goes on after each step with what that has left. -/
theorem readToEnd_of_skip_eq_cons {c : Char} {rest : List Char}
    (hskip : state.flags.skip text = c :: rest) :
    readToEnd state text = (step state c rest).bind fun (state, rest) => readToEnd state rest := by
  have hlength := state.flags.length_skip_le (Nat.le_refl text.length)
  rw [hskip, List.length_cons] at hlength
  unfold readToEnd
  rw [readFrom_eq_readFrom (Nat.le_refl _) (Nat.le_succ _)]
  simp only [readFrom, hskip]
  cases hstep : step state c rest with
  | none => rfl
  | some found =>
      have hleft := step_leaves (Nat.le_refl _) state c _ _ hstep
      exact readFrom_eq_readFrom (by omega) (Nat.le_refl _)

theorem readToEnd_step {next : Reading} {c : Char} {rest left : List Char}
    (hskip : state.flags.skip text = c :: rest) (hstep : step state c rest = some (next, left)) :
    readToEnd state text = readToEnd next left := by
  rw [readToEnd_of_skip_eq_cons hskip, hstep]
  rfl

/-- The expression that has been read, if all groups are closed and it is not too large. -/
def Piece.admitted? (piece : Piece) : Option Regex :=
  if nestingLimit < piece.depth || sizeLimit < piece.node.weight then none else some piece.node

theorem Piece.admitted?_eq_some_iff {piece : Piece} {regex : Regex} :
    piece.admitted? = some regex ↔
      (piece.depth ≤ nestingLimit ∧ piece.node.weight ≤ sizeLimit) ∧ piece.node = regex := by
  have hlimits : (decide (nestingLimit < piece.depth) || decide (sizeLimit < piece.node.weight)) =
      !decide (piece.depth ≤ nestingLimit ∧ piece.node.weight ≤ sizeLimit) := by
    rw [Bool.eq_iff_iff]
    simp
  unfold Piece.admitted?
  rw [hlimits]
  by_cases hsmall : piece.depth ≤ nestingLimit ∧ piece.node.weight ≤ sizeLimit <;> simp [hsmall]

def Reading.finish? (state : Reading) : Option Regex :=
  if state.frames.isEmpty then state.level.admitted? else none

theorem readChars?_eq (text : List Char) :
    readChars? text = (readToEnd {} text).bind Reading.finish? := by
  unfold readChars? Reading.finish? Piece.admitted? readToEnd
  cases readFrom text.length {} text with
  | none => rfl
  | some state => cases state with | mk _ _ _ frames _ _ => cases frames <;> rfl

/-! ## Anchors -/

/-- Behind the start anchor, in the group that is opened for the body. -/
def Reading.opened : Reading := { frames := [⟨.plain, {}, [⟨look .textStart, 0, false⟩], []⟩] }

/-- What stands behind the body. -/
def closing : Extent → List Char
  | .leading => [')']
  | .whole => [')', '$']

theorem readToEnd_anchored (body : List Char) (extent : Extent) :
    readToEnd {} (Pattern.Expression.anchored body extent) =
      readToEnd Reading.opened (body ++ closing extent) := by
  have hopened (rest : List Char) :
      readToEnd {} (['^', '(', '?', ':'] ++ rest) = readToEnd Reading.opened rest :=
    (readToEnd_step rfl rfl).trans (readToEnd_step rfl rfl)
  cases extent <;> simp only [Pattern.Expression.anchored, List.append_assoc] <;> exact hopened _

end RequestRouting.Regex
