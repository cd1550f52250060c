import Mathlib.Data.List.Forall2
import RequestRouting.Proofs.Reading

/-!
# Reading with less before it

Two readings are at the same text, one with more before it than the other: more pieces in the
sequence that is being read, or heavier and deeper ones. What the first one can read to the end,
the second one can (`readToEnd_le`). Nothing that has been read is looked at again but by a
repetition, which takes the latest piece, and by the limits for how large and how deep an
expression may be, which less before it cannot exceed where more does not.

`Reading.Le` relates two such readings, group by group. `Reading.Keeps` adds that the latest
piece is there in both or in neither: steps keep that, and a text that does not start with a
repetition does not need it.
-/

namespace RequestRouting.Regex

/-! ## Sizes -/

/-- An expression that is no larger in either direction weighs no more. -/
theorem weight_mono {r s : Regex} (hsize : ∀ d, r.size d ≤ s.size d) : r.weight ≤ s.weight := by
  have hforward := hsize .forward
  have hbackward := hsize .backward
  unfold weight
  omega

/-- The rounds of a larger expression are larger together. -/
theorem size_many_mono {d : Direction} {body other : Regex} (hsize : body.size d ≤ other.size d)
    (least : Nat) (most : Option Nat) (greedy twin : Bool) :
    (many least most greedy body).size d ≤ (many least most twin other).size d := by
  cases most with
  | none => exact Nat.add_le_add_right (Nat.mul_le_mul_left _ hsize) 40
  | some most =>
      have hleast : least * body.size d ≤ least * other.size d := Nat.mul_le_mul_left _ hsize
      have hrest : (most - least) * (body.size d + 40) ≤ (most - least) * (other.size d + 40) :=
        Nat.mul_le_mul_left _ (Nat.add_le_add_right hsize 40)
      simp only [size]
      split <;> omega

/-- The expressions one after the other. -/
def inTurn : List Regex → Regex
  | [] => .empty
  | first :: nodes => nodes.foldl .seq first

/-- The expressions among the pieces, in the order of the text. -/
def nodesOf (pieces : List Piece) : List Regex :=
  ((pieces.filter (!·.directive)).map (·.node)).reverse

/-- The depth of the deepest of the pieces. -/
def deepest (least : Nat) (pieces : List Piece) : Nat :=
  pieces.foldl (fun depth piece => max depth piece.depth) least

theorem sequence_cons_cons (first second : Piece) (pieces : List Piece) :
    sequence (first :: second :: pieces) =
      ⟨inTurn (nodesOf (first :: second :: pieces)),
        1 + deepest 0 (first :: second :: pieces), false⟩ := by
  have hnodes : ((first :: second :: pieces).filter (!·.directive)).map (·.node) =
      (nodesOf (first :: second :: pieces)).reverse := by
    rw [nodesOf, List.reverse_reverse]
  simp only [sequence, hnodes, List.reverse_reverse]
  cases nodesOf (first :: second :: pieces) <;> rfl

theorem directive_sequence (pieces : List Piece) : (sequence pieces).directive = false := by
  match pieces with
  | [] | [_] => rfl
  | first :: second :: pieces => rw [sequence_cons_cons]

/-- The size of expressions together. -/
def sizes (d : Direction) : List Regex → Nat
  | [] => 0
  | node :: nodes => node.size d + sizes d nodes

theorem sizes_concat (d : Direction) (nodes : List Regex) (node : Regex) :
    sizes d (nodes ++ [node]) = node.size d + sizes d nodes := by
  induction nodes with
  | nil => rfl
  | cons first nodes ih =>
      rw [List.cons_append, sizes, ih, sizes, Nat.add_left_comm]

theorem size_foldl_seq (d : Direction) (first : Regex) (nodes : List Regex) :
    (nodes.foldl .seq first).size d = first.size d + sizes d nodes := by
  induction nodes generalizing first with
  | nil => rfl
  | cons node nodes ih => rw [List.foldl_cons, ih, size, sizes, Nat.add_assoc]

theorem size_inTurn (d : Direction) (nodes : List Regex) :
    (inTurn nodes).size d = max 32 (sizes d nodes) := by
  cases nodes with
  | nil => rfl
  | cons first nodes =>
      have hleast := first.le_size d
      rw [inTurn, size_foldl_seq, sizes]
      omega

/-- The size of the expressions among the pieces. -/
def totalSize (d : Direction) (pieces : List Piece) : Nat := sizes d (nodesOf pieces)

theorem totalSize_cons (d : Direction) (piece : Piece) (pieces : List Piece) :
    totalSize d (piece :: pieces) =
      (if piece.directive then 0 else piece.node.size d) + totalSize d pieces := by
  unfold totalSize nodesOf
  cases hdirective : piece.directive <;> simp [hdirective, sizes_concat]

/-- A change of flags is no larger than the empty expression. -/
def Piece.Light (piece : Piece) : Prop := piece.directive = true → ∀ d, piece.node.size d = 32

theorem size_sequence {pieces : List Piece} (hlight : ∀ piece ∈ pieces, piece.Light)
    (d : Direction) : (sequence pieces).node.size d = max 32 (totalSize d pieces) := by
  match pieces with
  | [] => rfl
  | [piece] =>
      have hleast := piece.node.le_size d
      rw [totalSize_cons]
      split
      · exact hlight piece List.mem_cons_self ‹_› d
      · exact (Nat.max_eq_right hleast).symm
  | first :: second :: pieces => rw [sequence_cons_cons, size_inTurn, totalSize]

theorem le_deepest (least : Nat) (pieces : List Piece) : least ≤ deepest least pieces := by
  induction pieces generalizing least with
  | nil => exact Nat.le_refl _
  | cons piece pieces ih => exact Nat.le_trans (Nat.le_max_left _ _) (ih _)

/-- The second piece stands in the place of the first one and is no smaller. -/
structure Piece.Le (piece other : Piece) : Prop where
  directive : piece.directive = other.directive
  depth : piece.depth ≤ other.depth
  size (d : Direction) : piece.node.size d ≤ other.node.size d
  light : piece.Light
  lightOther : other.Light

theorem Piece.le_refl (node : Regex) (depth : Nat) :
    (⟨node, depth, false⟩ : Piece).Le ⟨node, depth, false⟩ :=
  ⟨rfl, Nat.le_refl _, fun _ => Nat.le_refl _, nofun, nofun⟩

/-- The pieces of the second list stand in the place of those of the first one, behind more. -/
inductive LeBehind : List Piece → List Piece → Prop
  | nil {before : List Piece} (hlight : ∀ piece ∈ before, piece.Light) : LeBehind [] before
  | cons {piece other : Piece} {pieces others : List Piece} (hle : piece.Le other)
      (hrest : LeBehind pieces others) : LeBehind (piece :: pieces) (other :: others)

namespace LeBehind

variable {pieces others : List Piece}

theorem light (hle : LeBehind pieces others) : ∀ piece ∈ pieces, piece.Light := by
  induction hle with
  | nil => nofun
  | cons hle _ ih => exact List.forall_mem_cons.mpr ⟨hle.light, ih⟩

theorem lightOthers (hle : LeBehind pieces others) : ∀ piece ∈ others, piece.Light := by
  induction hle with
  | nil hlight => exact hlight
  | cons hle _ ih => exact List.forall_mem_cons.mpr ⟨hle.lightOther, ih⟩

theorem totalSize_le (hle : LeBehind pieces others) (d : Direction) :
    totalSize d pieces ≤ totalSize d others := by
  induction hle with
  | nil => exact Nat.zero_le _
  | cons hle _ ih =>
      rw [totalSize_cons, totalSize_cons, hle.directive]
      refine Nat.add_le_add ?_ ih
      split
      · exact Nat.le_refl _
      · exact hle.size d

theorem deepest_le (hle : LeBehind pieces others) {least bound : Nat} (hbound : least ≤ bound) :
    deepest least pieces ≤ deepest bound others := by
  induction hle generalizing least bound with
  | nil => exact Nat.le_trans hbound (le_deepest _ _)
  | @cons piece other _ _ hle _ ih =>
      have hdepth := hle.depth
      have hfirst : max least piece.depth ≤ max bound other.depth := by omega
      exact ih hfirst

/-- The sequence of the pieces is no larger. -/
theorem sequence (hle : LeBehind pieces others) : (sequence pieces).Le (sequence others) where
  directive := by rw [directive_sequence, directive_sequence]
  depth := by
    have hdeepest := hle.deepest_le (Nat.le_refl 0)
    cases hle with
    | nil => exact Nat.zero_le _
    | @cons piece other pieces others hle hrest =>
        cases hrest with
        | cons =>
            rw [sequence_cons_cons, sequence_cons_cons]
            exact Nat.add_le_add_left hdeepest _
        | nil =>
            cases others with
            | nil => exact hle.depth
            | cons second others =>
                have hfirst : piece.depth ≤ deepest 0 (other :: second :: others) :=
                  Nat.le_trans (Nat.le_max_right 0 _) hdeepest
                rw [sequence_cons_cons]
                exact Nat.le_add_left_of_le hfirst
  size d := by
    rw [size_sequence hle.light, size_sequence hle.lightOthers]
    have htotal := hle.totalSize_le d
    omega
  light := by
    intro hdirective
    rw [directive_sequence] at hdirective
    cases hdirective
  lightOther := by
    intro hdirective
    rw [directive_sequence] at hdirective
    cases hdirective

end LeBehind

theorem LeBehind.of_forall₂ {pieces others : List Piece}
    (hle : List.Forall₂ Piece.Le pieces others) :
    LeBehind pieces others := by
  induction hle with
  | nil => exact .nil nofun
  | cons hle _ ih => exact .cons hle ih

theorem size_foldl_alt_le {branches others : List Piece}
    (hle : List.Forall₂ Piece.Le branches others) {d : Direction} {last lastOther : Regex}
    (hlast : last.size d ≤ lastOther.size d) :
    (branches.foldl (fun node branch => .alt branch.node node) last).size d ≤
      (others.foldl (fun node branch => .alt branch.node node) lastOther).size d := by
  induction hle generalizing last lastOther with
  | nil => exact hlast
  | cons hle _ ih =>
      refine ih ?_
      have hsize := hle.size d
      simp only [size]
      omega

/-- A choice between branches that are no larger is no larger. -/
theorem choice_le {branches others : List Piece} (hle : List.Forall₂ Piece.Le branches others) :
    (choice branches).Le (choice others) := by
  match hle with
  | .nil => exact Piece.le_refl _ _
  | .cons hlast .nil => exact hlast
  | .cons hlast (.cons hsecond hrest) =>
      have hbranches := List.Forall₂.cons hsecond hrest
      have hdepth := (LeBehind.of_forall₂ hbranches).deepest_le hlast.depth
      exact ⟨rfl, Nat.add_le_add_left hdepth 1,
        fun d => size_foldl_alt_le hbranches (hlast.size d), nofun, nofun⟩

/-! ## Readings -/

/-- Both start a group that captures, or neither does. -/
inductive GroupKind.Alike : GroupKind → GroupKind → Prop
  | plain : Alike .plain .plain
  | capturing {number twin : Nat} {name other : Option String} :
      Alike (.capturing number name) (.capturing twin other)

structure Frame.Le (frame other : Frame) : Prop where
  kind : frame.kind.Alike other.kind
  flags : frame.flags = other.flags
  pieces : LeBehind frame.pieces other.pieces
  branches : List.Forall₂ Piece.Le frame.branches other.branches

/-- The second reading has come to the same place with no less before it. -/
structure Reading.Le (state other : Reading) : Prop where
  flags : state.flags = other.flags
  pieces : LeBehind state.pieces other.pieces
  branches : List.Forall₂ Piece.Le state.branches other.branches
  frames : List.Forall₂ Frame.Le state.frames other.frames
  names : state.names ⊆ other.names

/-- Moreover there is something to repeat in the first one if there is in the second one. -/
structure Reading.Keeps (state other : Reading) : Prop extends state.Le other where
  settled : state.pieces = [] → other.pieces = []

namespace Reading

variable {state other : Reading}

theorem Le.push (hle : state.Le other) {piece twin : Piece} (hpiece : piece.Le twin) :
    (state.push piece).Keeps (other.push twin) where
  flags := hle.flags
  pieces := .cons hpiece hle.pieces
  branches := hle.branches
  frames := hle.frames
  names := hle.names
  settled := nofun

theorem Le.bar (hle : state.Le other) : state.bar.Keeps other.bar where
  flags := hle.flags
  pieces := .nil nofun
  branches := .cons hle.pieces.sequence hle.branches
  frames := hle.frames
  names := hle.names
  settled := fun _ => rfl

theorem Le.level (hle : state.Le other) : state.level.Le other.level :=
  choice_le (.cons hle.pieces.sequence hle.branches)

theorem Le.openGroup (hle : state.Le other) {kind twin : GroupKind} (hkind : kind.Alike twin)
    (flags : Flags) : (state.openGroup kind flags).Keeps (other.openGroup twin flags) where
  flags := rfl
  pieces := .nil nofun
  branches := .nil
  frames := .cons ⟨hkind, hle.flags, hle.pieces, hle.branches⟩ hle.frames
  names := hle.names
  settled := fun _ => rfl

theorem Le.closeGroup (hle : state.Le other) {next : Reading}
    (hnext : other.closeGroup = some next) :
    ∃ result, state.closeGroup = some result ∧ result.Keeps next := by
  have hlevel := hle.level
  have hframes := hle.frames
  unfold Reading.closeGroup at hnext ⊢
  cases hother : other.frames with
  | nil =>
      rw [hother] at hnext
      cases hnext
  | cons twin others =>
      rw [hother] at hnext hframes
      obtain ⟨frame, frames, hframe, hrest, hstate⟩ := List.forall₂_cons_right_iff.mp hframes
      rw [hstate]
      cases hnext
      refine ⟨_, rfl, ⟨hframe.flags, .cons ⟨rfl, ?_, ?_, nofun, nofun⟩ hframe.pieces,
        hframe.branches, hrest, hle.names⟩, nofun⟩
      · exact Nat.add_le_add_left hlevel.depth 1
      · have hkind := hframe.kind
        generalize frame.kind = kind at hkind ⊢
        generalize twin.kind = kindOther at hkind ⊢
        cases hkind with
        | plain => exact hlevel.size
        | capturing => exact fun d => Nat.add_le_add_right (hlevel.size d) d.groupEnds

theorem Keeps.repeatLast (hkeeps : state.Keeps other) {least : Nat} {most : Option Nat}
    {greedy : Bool} {next : Reading} (hnext : other.repeatLast least most greedy = some next) :
    ∃ result, state.repeatLast least most greedy = some result ∧ result.Keeps next := by
  have hpieces := hkeeps.pieces
  unfold Reading.repeatLast at hnext ⊢
  cases hother : other.pieces with
  | nil =>
      rw [hother] at hnext
      cases hnext
  | cons twin others =>
      rw [hother] at hnext hpieces
      cases hstate : state.pieces with
      | nil =>
          rw [hkeeps.settled hstate] at hother
          cases hother
      | cons piece pieces =>
          rw [hstate] at hpieces
          cases hpieces with
          | cons hpiece hrest =>
              dsimp only at hnext ⊢
              rw [hpiece.directive]
              split at hnext
              · cases hnext
              · rename_i hplain
                rw [if_neg hplain]
                cases hnext
                refine ⟨_, rfl, ⟨hkeeps.flags, .cons ⟨rfl, ?_, ?_, nofun, nofun⟩ hrest,
                  hkeeps.branches, hkeeps.frames, hkeeps.names⟩, nofun⟩
                · exact Nat.add_le_add_left hpiece.depth 1
                · intro d
                  dsimp only
                  split
                  · exact Nat.le_refl _
                  · exact size_many_mono (hpiece.size d) least most _ _

end Reading

/-! ## Steps -/

/-- If the second step is possible, so is the first one, and it comes as far. -/
def Follows (first second : Option (Reading × List Char)) : Prop :=
  ∀ next left, second = some (next, left) →
    ∃ result, first = some (result, left) ∧ result.Keeps next

namespace Follows

variable {state other : Reading} {left : List Char}

theorem none (first : Option (Reading × List Char)) : Follows first none := nofun

theorem some (hkeeps : state.Keeps other) : Follows (some (state, left)) (some (other, left)) := by
  rintro _ _ ⟨⟩
  exact ⟨_, rfl, hkeeps⟩

/-- A part of the step that does not depend on what is before it. -/
theorem bind {α : Type} (shared : Option α) {first second : α → Option (Reading × List Char)}
    (honward : ∀ a, shared = Option.some a → Follows (first a) (second a)) :
    Follows (shared.bind first) (shared.bind second) := by
  cases shared with
  | none => exact none _
  | some a => exact honward a rfl

theorem repeatLast (hkeeps : state.Keeps other) (least : Nat) (most : Option Nat)
    (greedy : Bool) :
    Follows ((state.repeatLast least most greedy).bind fun state => Option.some (state, left))
      ((other.repeatLast least most greedy).bind fun state => Option.some (state, left)) := by
  intro next rest hnext
  obtain ⟨later, hlater, hnext⟩ := Option.bind_eq_some_iff.mp hnext
  cases hnext
  obtain ⟨result, hresult, hkeeps⟩ := hkeeps.repeatLast hlater
  exact ⟨result, by rw [hresult]; rfl, hkeeps⟩

end Follows

section Steps

variable {state other : Reading}

theorem openNamed_follows (hle : state.Le other) (text : List Char) :
    Follows (openNamed state text) (openNamed other text) := by
  refine .bind _ fun (name, rest) hname => ?_
  dsimp only
  by_cases hother : other.names.contains (String.ofList name) = true
  · rw [hother, Bool.or_true, if_pos rfl]
    exact .none _
  · have hstate : ¬state.names.contains (String.ofList name) = true := fun hmem =>
      hother (List.contains_iff_mem.mpr (hle.names (List.contains_iff_mem.mp hmem)))
    rw [Bool.not_eq_true] at hother hstate
    rw [hother, hstate, hle.flags]
    split
    · exact .none _
    · refine .some (Reading.Le.openGroup ?_ .capturing _)
      exact ⟨rfl, hle.pieces, hle.branches, hle.frames, List.cons_subset_cons _ hle.names⟩

theorem readGroup_follows (hle : state.Le other) (text : List Char) :
    Follows (readGroup state text) (readGroup other text) := by
  unfold readGroup
  rw [hle.flags]
  split
  · exact .none _
  · exact .none _
  · exact .none _
  · exact .none _
  · exact openNamed_follows hle _
  · exact openNamed_follows hle _
  · refine .bind _ fun (flags, given, stop, rest) _ => ?_
    dsimp only
    split
    · exact .some (hle.openGroup .plain _)
    · split
      · refine .some (Reading.Le.push ?_ ?_)
        · exact ⟨rfl, hle.pieces, hle.branches, hle.frames, hle.names⟩
        · exact ⟨rfl, Nat.le_refl _, fun _ => Nat.le_refl _, fun _ _ => rfl, fun _ _ => rfl⟩
      · exact .none _
  · refine .some (Reading.Le.openGroup ?_ .capturing _)
    exact ⟨rfl, hle.pieces, hle.branches, hle.frames, hle.names⟩

theorem readCounted_follows (hkeeps : state.Keeps other) (text : List Char) :
    Follows (readCounted state text) (readCounted other text) := by
  -- However the bounds are written, what they are put to is the last piece.
  have hrepeat (least : Nat) (most : Option Nat) (rest : List Char) :
      Follows
        (if most.any (· < least) then none
          else (state.repeatLast least most (readLazy rest).1).bind fun state =>
            some (state, (readLazy rest).2))
        (if most.any (· < least) then none
          else (other.repeatLast least most (readLazy rest).1).bind fun state =>
            some (state, (readLazy rest).2)) := by
    split
    · exact .none _
    · exact .repeatLast hkeeps _ _ _
  unfold readCounted
  rw [hkeeps.flags]
  refine .bind _ fun (least, rest) _ => ?_
  dsimp only
  split
  · split
    · exact hrepeat least none _
    · refine .bind _ fun (most, rest) _ => ?_
      dsimp only
      split
      · exact hrepeat least (some most) _
      · exact .none _
  · exact hrepeat least (some least) _
  · exact .none _

/-- A step that is possible with more before it is possible with less before it. Only a
repetition asks what is before it. -/
theorem step_follows (hle : state.Le other) {c : Char}
    (hready : (state.pieces = [] → other.pieces = []) ∨ c ∉ ['?', '*', '+', '\x7b'])
    (text : List Char) : Follows (step state c text) (step other c text) := by
  have hkeeps (hmem : c ∈ ['?', '*', '+', '\x7b']) : state.Keeps other :=
    ⟨hle, hready.resolve_right (not_not_intro hmem)⟩
  unfold step
  rw [hle.flags]
  extract_lets flags counted counted'
  split
  · exact readGroup_follows hle text
  · rintro next left hnext
    obtain ⟨closed, hclosed, hnext⟩ := Option.map_eq_some_iff.mp hnext
    cases hnext
    obtain ⟨result, hresult, hkeeps⟩ := hle.closeGroup hclosed
    exact ⟨result, by rw [hresult]; rfl, hkeeps⟩
  · exact .some hle.bar
  · rw [Option.map_eq_bind, Option.map_eq_bind]
    exact .bind _ fun _ _ => .some (hle.push (Piece.le_refl _ _))
  · exact .repeatLast (hkeeps (by simp)) _ _ _
  · exact .repeatLast (hkeeps (by simp)) _ _ _
  · exact .repeatLast (hkeeps (by simp)) _ _ _
  · exact readCounted_follows (hkeeps (by simp)) text
  · rw [Option.map_eq_bind, Option.map_eq_bind]
    exact .bind _ fun _ _ => .some (hle.push (Piece.le_refl _ _))
  · rw [Option.map_eq_bind, Option.map_eq_bind]
    exact .bind _ fun _ _ => .some (hle.push (Piece.le_refl _ _))
  · exact .some (hle.push (Piece.le_refl _ _))
  · exact .some (hle.push (Piece.le_refl _ _))
  · exact .some (hle.push (Piece.le_refl _ _))

/-- What can be read to the end with more before it can be read with less before it, if it does
not begin with a repetition. -/
theorem readToEnd_le (hle : state.Le other) {text : List Char}
    (hready : (state.pieces = [] → other.pieces = []) ∨
      ∀ c ∈ (state.flags.skip text).head?, c ∉ ['?', '*', '+', '\x7b'])
    {final : Reading} (hfinal : readToEnd other text = some final) :
    ∃ result, readToEnd state text = some result ∧ result.Le final := by
  induction hlength : text.length using Nat.strongRecOn generalizing state other text with
  | ind length ih =>
      cases hskip : state.flags.skip text with
      | nil =>
          rw [readToEnd_of_skip_eq_nil (hle.flags ▸ hskip)] at hfinal
          cases hfinal
          exact ⟨state, readToEnd_of_skip_eq_nil hskip, hle⟩
      | cons c rest =>
          rw [hskip] at hready
          rw [readToEnd_of_skip_eq_cons (hle.flags ▸ hskip)] at hfinal
          obtain ⟨⟨next, left⟩, hnext, hfinal⟩ := Option.bind_eq_some_iff.mp hfinal
          have hfirst : (state.pieces = [] → other.pieces = []) ∨ c ∉ ['?', '*', '+', '\x7b'] :=
            hready.imp_right fun hplain => hplain c rfl
          obtain ⟨result, hresult, hkeeps⟩ := step_follows hle hfirst rest next left hnext
          rw [readToEnd_of_skip_eq_cons hskip, hresult]
          have hshorter := state.flags.length_skip_le (Nat.le_refl text.length)
          rw [hskip, List.length_cons] at hshorter
          have hleft := step_leaves (Nat.le_refl rest.length) other c _ _ hnext
          exact ih left.length (by omega) hkeeps.toLe (.inl hkeeps.settled) hfinal rfl

theorem Piece.Le.admitted? {piece twin : Piece} (hle : piece.Le twin) {regex : Regex}
    (hregex : twin.admitted? = some regex) : ∃ smaller, piece.admitted? = some smaller := by
  have hdepth := hle.depth
  have hweight := weight_mono hle.size
  unfold Piece.admitted? at hregex ⊢
  split at hregex
  · cases hregex
  · rename_i hsmall
    refine ⟨_, if_neg fun hlarge => hsmall ?_⟩
    simp only [Bool.or_eq_true, decide_eq_true_eq] at hlarge ⊢
    omega

theorem Reading.Le.finish? (hle : state.Le other) {regex : Regex}
    (hregex : other.finish? = some regex) : ∃ smaller, state.finish? = some smaller := by
  have hframes : state.frames.isEmpty = other.frames.isEmpty := by
    rw [Bool.eq_iff_iff, List.isEmpty_iff_length_eq_zero, List.isEmpty_iff_length_eq_zero,
      hle.frames.length_eq]
  unfold Reading.finish? at hregex ⊢
  rw [hframes]
  split at hregex
  · rename_i hempty
    rw [if_pos hempty]
    exact hle.level.admitted? hregex
  · cases hregex

end Steps

end RequestRouting.Regex
