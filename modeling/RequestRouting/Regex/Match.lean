import RequestRouting.Regex.Basic

/-!
# Matching

An expression read from a place in a text can end in several places. `outcomes`
lists them in order of preference, each with the groups that took part: what an
alternation tries first comes first, and a greedy repetition lists its longer
runs before its shorter ones. Two ways to reach the same place differ only in
their groups, so of several only the preferred one is kept; that keeps the lists
no longer than the text and matching free of repeated work. For the same reason
`outcomes` takes all the places to start from at once, themselves in order of
preference: what one of them reaches need not be visited again from the next.

A repetition whose round can be empty stops after an empty round: a round that
consumes nothing may only be the last mandatory one.
-/

namespace RequestRouting.Regex

/-- The part of the text a group last took: its number, start and end. -/
structure Capture where
  number : Nat
  start : Nat
  stop : Nat
  deriving DecidableEq, Repr

/-- A place in a text on the way through a match. -/
structure Place where
  /-- The character before the place. -/
  before : Option Char
  /-- What is still to be read. -/
  rest : List Char
  /-- How many characters have been read. -/
  index : Nat
  /-- The captured parts, latest first. -/
  captures : List Capture

namespace Place

/-- The start of a text. -/
def atStart (text : List Char) : Place := ⟨none, text, 0, []⟩

/-- The place after the next character, if that is in `set`. -/
def take? (set : CharSet) (p : Place) : Option Place :=
  match p.rest with
  | c :: rest => if set.contains c then some ⟨some c, rest, p.index + 1, p.captures⟩ else none
  | [] => none

/-- Notes that a group spans from `start` to here. -/
def capture (number : Nat) (start : Place) (p : Place) : Place :=
  { p with captures := ⟨number, start.index, p.index⟩ :: p.captures }

end Place

/-- Keeps the first of the places at each text position that is not in `seen`, a set
of positions with one bit for each. -/
def distinctFrom (seen : Nat) : List Place → List Place
  | [] => []
  | p :: places =>
      if seen.testBit p.index then distinctFrom seen places
      else p :: distinctFrom (seen ||| 1 <<< p.index) places

/-- Keeps the first of the places at each text position. -/
def distinct (places : List Place) : List Place := distinctFrom 0 places

/-- The places found so far, one for each text position. -/
structure Found where
  /-- The text positions, one bit for each. -/
  seen : Nat := 0
  /-- The places, the latest first. -/
  latestFirst : List Place := []

namespace Found

/-- Whether the text position of a place has been found. -/
def has (found : Found) (p : Place) : Bool := found.seen.testBit p.index

/-- Adds a place unless its text position has been found. -/
def add (found : Found) (p : Place) : Found :=
  if found.has p then found
  else ⟨found.seen ||| 1 <<< p.index, p :: found.latestFirst⟩

/-- The places in the order in which they were found. -/
def toList (found : Found) : List Place := found.latestFirst.reverse

end Found

section Rounds

/- The ends of one round, for a list of places to start from. -/
variable (body : List Place → List Place)

/-- Exactly the given number of rounds. -/
def rounds : Nat → List Place → List Place
  | 0, places => places
  | n + 1, places => rounds n (body places)

/-- Adds to `found` the ends of any number of further rounds, none of them
empty. The positions already found need no second visit. `fuel` is the length of
the text left, which every round shortens. -/
def furtherRounds (greedy : Bool) : Nat → Found → Place → Found
  | 0, found, p => found.add p
  | fuel + 1, found, p =>
      if found.has p then found
      else
        let onward := (body [p]).filter (·.index != p.index)
        if greedy then (onward.foldl (furtherRounds greedy fuel) found).add p
        else onward.foldl (furtherRounds greedy fuel) (found.add p)

/-- Adds to `found` the ends of one or more rounds. An empty round is the last. -/
def atLeastOneRound (greedy : Bool) (found : Found) (p : Place) : Found :=
  (body [p]).foldl
    (fun found q =>
      if q.index == p.index then found.add q
      else furtherRounds body greedy q.rest.length found q)
    found

/-- Adds to `found` the ends of any number of rounds, and of none. -/
def anyRounds (greedy : Bool) (found : Found) (p : Place) : Found :=
  if greedy then (atLeastOneRound body greedy found p).add p
  else atLeastOneRound body greedy (found.add p) p

/-- Adds to `found` the ends of at most the given number of rounds. `visited`
holds the pairs of rounds left and position that have been explored. -/
def boundedRounds (greedy : Bool) :
    Nat → List (Nat × Nat) × Found → Place → List (Nat × Nat) × Found
  | 0, (visited, found), p => (visited, found.add p)
  | n + 1, (visited, found), p =>
      if visited.contains (n + 1, p.index) then (visited, found)
      else
        let visited := (n + 1, p.index) :: visited
        if greedy then
          let (visited, found) := (body [p]).foldl (boundedRounds greedy n) (visited, found)
          (visited, found.add p)
        else (body [p]).foldl (boundedRounds greedy n) (visited, found.add p)

/-- The ends of a repetition in order of preference. -/
def repeated (least : Nat) (most : Option Nat) (greedy : Bool) (places : List Place) :
    List Place :=
  match most, least with
  | some most, _ =>
      ((rounds body least places).foldl (boundedRounds body greedy (most - least))
        ([], {})).2.toList
  | none, 0 => (places.foldl (anyRounds body greedy) {}).toList
  | none, required + 1 =>
      ((rounds body required places).foldl (atLeastOneRound body greedy) {}).toList

end Rounds

/-- The places where a match from one of the given places can end, one for each text
position, in order of preference. -/
def outcomes : Regex → List Place → List Place
  | empty, places => places
  | chars set, places => places.filterMap (Place.take? set)
  | look condition, places =>
      places.filter fun p => condition.holds p.before p.rest.head?
  | seq first second, places => second.outcomes (first.outcomes places)
  | alt first second, places =>
      distinct (places.flatMap fun p => first.outcomes [p] ++ second.outcomes [p])
  | group number _ body, places =>
      distinct (places.flatMap fun p => (body.outcomes [p]).map (Place.capture number p))
  | many least most greedy body, places => repeated body.outcomes least most greedy places

/-- The preferred match that starts at the place or, failing that, as soon after
it as possible: the place where it starts and the place where it ends. -/
def searchFrom (r : Regex) : List Char → Option Char → Nat → Option (Nat × Place)
  | rest, before, index =>
      match r.outcomes [⟨before, rest, index, []⟩] with
      | found :: _ => some (index, found)
      | [] =>
          match rest with
          | c :: rest => searchFrom r rest (some c) (index + 1)
          | [] => none

/-- The preferred leftmost match in a text. -/
def search (r : Regex) (text : List Char) : Option (Nat × Place) :=
  r.searchFrom text none 0

/-- Whether an expression matches somewhere in a text. -/
def isMatch (r : Regex) (text : List Char) : Bool :=
  (r.search text).isSome

/-- The captured parts of the preferred leftmost match: for each group from the
first on, the part it last took, if it took part. -/
def captured (r : Regex) (text : List Char) : Option (List (Option (List Char))) :=
  (r.search text).map fun (_, found) =>
    (List.range r.groupCount).map fun number =>
      (found.captures.find? (·.number == number + 1)).map fun capture =>
        (text.drop capture.start).take (capture.stop - capture.start)

end RequestRouting.Regex
