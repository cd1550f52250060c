import RequestRouting.Regex.CharSet

/-!
# Regular expressions

The expressions that path patterns compile to. Flags are resolved when an
expression is read, so a node says completely what it accepts: a class already
knows about case, a repetition whether it prefers more or fewer rounds, and a
line anchor which line ends it respects.
-/

namespace RequestRouting

namespace Regex

/-- Conditions on the place between two characters. -/
inductive Look
  | textStart
  | textEnd
  | lineStart
  | lineEnd
  /-- Line start and end where carriage return, line feed and their pair end lines. -/
  | lineStartAny
  | lineEndAny
  /-- Between a word character and something else, or not so. -/
  | wordEdge (ascii : Bool)
  | noWordEdge (ascii : Bool)
  | wordStart (ascii : Bool)
  | wordEnd (ascii : Bool)
  /-- No word character before, or none after. -/
  | wordStartHalf (ascii : Bool)
  | wordEndHalf (ascii : Bool)
  deriving DecidableEq, Repr

namespace Look

/-- Whether there is a word character on one side. -/
def isWordAt (ascii : Bool) : Option Char → Bool
  | some c => if ascii then Text.isAsciiWord c else Text.isWord c
  | none => false

/-- Whether the condition holds between the character before and the one after. -/
def holds (look : Look) (before after : Option Char) : Bool :=
  match look with
  | textStart => before.isNone
  | textEnd => after.isNone
  | lineStart => before.isNone || before == some '\n'
  | lineEnd => after.isNone || after == some '\n'
  | lineStartAny =>
      before.isNone || before == some '\n' || (before == some '\r' && after != some '\n')
  | lineEndAny =>
      after.isNone || after == some '\r' || (after == some '\n' && before != some '\r')
  | wordEdge ascii => isWordAt ascii before != isWordAt ascii after
  | noWordEdge ascii => isWordAt ascii before == isWordAt ascii after
  | wordStart ascii => !isWordAt ascii before && isWordAt ascii after
  | wordEnd ascii => isWordAt ascii before && !isWordAt ascii after
  | wordStartHalf ascii => !isWordAt ascii before
  | wordEndHalf ascii => !isWordAt ascii after

end Look

end Regex

/-- A regular expression. Alternatives and repetitions carry a preference: the
first alternative is tried first, and a greedy repetition tries another round
before it stops. -/
inductive Regex
  /-- Accepts the empty text. -/
  | empty
  /-- Accepts one character of a set. -/
  | chars (set : Regex.CharSet)
  /-- Accepts the empty text where a condition holds. -/
  | look (condition : Regex.Look)
  | seq (first second : Regex)
  | alt (first second : Regex)
  /-- A capturing group with its number, counted from one, and its name. -/
  | group (number : Nat) (name : Option String) (body : Regex)
  /-- At least `least` rounds and at most `most`, if there is a bound. -/
  | many (least : Nat) (most : Option Nat) (greedy : Bool) (body : Regex)

namespace Regex

/-- The capturing groups of an expression with their names, in order of their
opening parentheses. -/
def groups : Regex → List (Nat × Option String)
  | empty | chars _ | look _ => []
  | seq first second | alt first second => first.groups ++ second.groups
  | group number name body => (number, name) :: body.groups
  | many _ _ _ body => body.groups

/-- The highest group number in use. -/
def groupCount (r : Regex) : Nat :=
  r.groups.foldl (fun count entry => max count entry.1) 0

/-- The names of the named groups in order. -/
def names (r : Regex) : List String :=
  r.groups.filterMap (·.2)

end Regex

end RequestRouting
