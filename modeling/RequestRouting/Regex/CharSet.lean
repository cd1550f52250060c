import RequestRouting.Text.CaseOrbit
import RequestRouting.Text.CharClass

/-!
# Sets of characters

What a bracketed class, a dot or a class escape accepts. A set is kept as the
expression that describes it; membership is computed from the description, so
the laws of union, intersection, complement and case folding hold by unfolding.
-/

namespace RequestRouting.Regex

/-- The value of a hexadecimal digit. -/
def hexValue? (c : Char) : Option Nat :=
  if '0' ≤ c ∧ c ≤ '9' then some (c.toNat - '0'.toNat)
  else if 'a' ≤ c ∧ c ≤ 'f' then some (c.toNat - 'a'.toNat + 10)
  else if 'A' ≤ c ∧ c ≤ 'F' then some (c.toNat - 'A'.toNat + 10)
  else none

/-- A description of a set of characters. -/
inductive CharSet
  | none
  | range (first last : Char)
  | digit
  | blank
  | word
  | category (accepts : Text.Category → Bool)
  | alphabetic
  | union (a b : CharSet)
  | inter (a b : CharSet)
  | diff (a b : CharSet)
  | symmDiff (a b : CharSet)
  | compl (a : CharSet)
  /-- Every character whose case orbit meets the set. -/
  | folded (a : CharSet)
  /-- As `folded`, for ASCII letters only. -/
  | asciiFolded (a : CharSet)

namespace CharSet

/-- Membership. -/
def contains : CharSet → Char → Bool
  | none, _ => false
  | range first last, c => first ≤ c && c ≤ last
  | digit, c => Text.isDecimal c
  | blank, c => Text.isBlank c
  | word, c => Text.isWord c
  | category accepts, c => accepts (Text.categoryOf c)
  | alphabetic, c => Text.isAlphabetic c
  | union a b, c => a.contains c || b.contains c
  | inter a b, c => a.contains c && b.contains c
  | diff a b, c => a.contains c && !b.contains c
  | symmDiff a b, c => a.contains c != b.contains c
  | compl a, c => !a.contains c
  | folded a, c => (Text.caseOrbit c).any a.contains
  | asciiFolded a, c => (Text.asciiCaseOrbit c).any a.contains

/-- The set of one character. -/
def single (c : Char) : CharSet := range c c

/-- Every character. -/
def all : CharSet := compl none

/-- Every character but the listed ones. -/
def except (cs : List Char) : CharSet :=
  compl (cs.foldr (fun c set => union (single c) set) none)

/-- The union of a list of ranges. -/
def ranges (pairs : List (Char × Char)) : CharSet :=
  pairs.foldr (fun (first, last) set => union (range first last) set) none

/-- The union of a list of ranges of code points. -/
def codes (pairs : List (Nat × Nat)) : CharSet :=
  ranges (pairs.map fun (first, last) => (.ofNat first, .ofNat last))

/-- The character with a code point in hexadecimal. -/
def characterAt (digits : String) : Char :=
  Char.ofNat (digits.toList.foldl (fun code digit => code * 16 + (hexValue? digit).getD 0) 0)

/-- The characters of a table: its rows list code points, and closed ranges such as `41..5A`. -/
def ofTable (rows : List String) : CharSet :=
  ranges <| rows.flatMap fun row => (row.splitOn " ").map fun entry =>
    let ends := (entry.splitOn "..").map characterAt
    (ends.headD '\x00', ends.getLastD '\x00')

/-- The named ASCII classes of bracketed expressions. -/
def ofAsciiName? : String → Option CharSet
  | "alnum" => some (ranges [('0', '9'), ('A', 'Z'), ('a', 'z')])
  | "alpha" => some (ranges [('A', 'Z'), ('a', 'z')])
  | "ascii" => some (range '\x00' '\x7f')
  | "blank" => some (ranges [('\t', '\t'), (' ', ' ')])
  | "cntrl" => some (ranges [('\x00', '\x1f'), ('\x7f', '\x7f')])
  | "digit" => some (range '0' '9')
  | "graph" => some (range '!' '~')
  | "lower" => some (range 'a' 'z')
  | "print" => some (range ' ' '~')
  | "punct" => some (ranges [('!', '/'), (':', '@'), ('[', '\x60'), ('\x7b', '~')])
  | "space" => some (ranges [('\t', '\r'), (' ', ' ')])
  | "upper" => some (range 'A' 'Z')
  | "word" => some (ranges [('0', '9'), ('A', 'Z'), ('_', '_'), ('a', 'z')])
  | "xdigit" => some (ranges [('0', '9'), ('A', 'F'), ('a', 'f')])
  | _ => Option.none

@[simp] theorem contains_single (c d : Char) :
    (single c).contains d = true ↔ c = d := by
  simp only [single, contains, Bool.and_eq_true, decide_eq_true_eq]
  constructor
  · rintro ⟨hlow, hhigh⟩
    exact Char.le_antisymm hlow hhigh
  · rintro rfl
    exact ⟨Char.le_refl _, Char.le_refl _⟩

end CharSet

end RequestRouting.Regex
