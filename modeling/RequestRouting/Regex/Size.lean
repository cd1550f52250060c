import RequestRouting.Regex.Basic

/-!
# Sizes of expressions

An expression is compiled into two automata over the bytes of a text, one for each direction, and
is refused if one of them takes more than `sizeLimit` bytes. The sizes here are those of the
compiler: a state takes 32 bytes, a range of bytes that a state tells from others 8 bytes, and an
alternative 4 bytes. They are exact for characters, for classes of ASCII characters and their
complements, and for sequences, groups and repetitions of those. What a range of other characters
takes depends on the bytes it shares with the ranges around it, and there an average stands for it.
A choice is counted as it is written, though the compiler may find a smaller form for it.
-/

namespace RequestRouting.Regex

open Text (Category)

/-- The direction in which an automaton reads. -/
inductive Direction
  | forward
  | backward

namespace Direction

/-- What a range of ASCII characters takes. -/
def asciiRange : Direction → Nat
  | forward => 8
  | backward => 36

/-- What a range of other characters takes. -/
def otherRange : Direction → Nat
  | forward => 32
  | backward => 64

/-- What the characters outside a set take, besides the ranges of the set. -/
def outside : Direction → Nat
  | forward => 352
  | backward => 900

/-- The states for the two ends of a group. Only a match forward has to find them. -/
def groupEnds : Direction → Nat
  | forward => 64
  | backward => 0

end Direction

/-- The number of ranges that general categories consist of. -/
def categoryRanges (accepts : Category → Bool) : Nat :=
  (Category.runs.foldl (fun (count, inside) (_, category) =>
    (if accepts category && !inside then count + 1 else count, accepts category)) (0, false)).1

namespace CharSet

/-- The only character of a set that is written with one character. -/
def character? : CharSet → Option Char
  | range first last => if first = last then some first else Option.none
  | folded a => a.character?.filter fun c => (Text.caseOrbit c).length == 1
  | asciiFolded a => a.character?.filter fun c => (Text.asciiCaseOrbit c).length == 1
  | _ => Option.none

/-- Whether a set is written with ASCII characters only. -/
def isAscii : CharSet → Bool
  | none => true
  | range _ last => last.toNat < 0x80
  | union a b | symmDiff a b => a.isAscii && b.isAscii
  | inter a b => a.isAscii || b.isAscii
  | diff a _ | folded a | asciiFolded a => a.isAscii
  | _ => false

/-- What the ranges of a set take. Where sets are put together, none of their ranges meet. -/
def rangesSize (d : Direction) : CharSet → Nat
  | none => 0
  | range _ last => if last.toNat < 0x80 then d.asciiRange else d.otherRange
  | digit => 64 * d.otherRange
  | blank => 10 * d.otherRange
  | word => 771 * d.otherRange
  | category accepts => categoryRanges accepts * d.otherRange
  | alphabetic => 732 * d.otherRange
  | union a b | inter a b | diff a b | symmDiff a b => a.rangesSize d + b.rangesSize d
  | compl a => d.outside + a.rangesSize d
  | folded a | asciiFolded a => 2 * a.rangesSize d

/-- What the states for a set take: one for each byte of a single character, and otherwise a state
at either end with the ranges between them. ASCII characters are read alike in both directions. -/
def size (d : Direction) (set : CharSet) : Nat :=
  match set.character? with
  | some c => 32 * c.utf8Size
  | Option.none => 64 + set.rangesSize (if set.isAscii then .forward else d)

/-- No set takes less than a state. -/
theorem le_size (d : Direction) (set : CharSet) : 32 ≤ set.size d := by
  unfold size
  split
  · exact Nat.le_mul_of_pos_right 32 (Char.utf8Size_pos _)
  · omega

@[simp] theorem size_single (d : Direction) (c : Char) : (single c).size d = 32 * c.utf8Size := by
  simp [single, size, character?]

end CharSet

/-- What the automaton of an expression takes in a direction. -/
def size (d : Direction) : Regex → Nat
  | .empty | .look _ => 32
  | .chars set => set.size d
  | .seq first second => first.size d + second.size d
  | .alt first second => first.size d + second.size d + 72
  | .group _ _ body => body.size d + d.groupEnds
  | .many least none _ body => max 1 least * body.size d + 40
  -- Each round that may be left out is a choice, and all of them lead to one end.
  | .many least (some most) _ body =>
      max 32 (least * body.size d +
        if least < most then 32 + (most - least) * (body.size d + 40) else 0)

/-- What the larger one of the two automata takes. -/
def weight (r : Regex) : Nat := max (r.size .forward) (r.size .backward)

/-- How large an automaton may get. -/
def sizeLimit : Nat := 10485760

/-- No expression takes less than a state. -/
theorem le_size (d : Direction) (r : Regex) : 32 ≤ r.size d := by
  induction r with
  | empty | look _ => exact Nat.le_refl _
  | chars set => exact set.le_size d
  | seq first second ih _ => exact Nat.le_add_right_of_le ih
  | alt first second ih _ | group number name body ih =>
      simp only [size]
      omega
  | many least most greedy body ih =>
      cases most with
      | none => exact Nat.le_trans (by decide) (Nat.le_add_left 40 _)
      | some most => exact Nat.le_max_left _ _

end RequestRouting.Regex
