import RequestRouting.Regex.Property
import RequestRouting.Regex.Size

/-!
# Reading expressions

`Regex.read?` turns the text of an expression into a `Regex`, or refuses it. The
reader goes through the text once, with a stack of open groups. What it knows at
each point is the flags in force, the pieces read since the last bar, the
branches closed by bars, and the groups still open; each step takes one element
of the text, so reading ends.

Refused are unbalanced groups and classes, repetitions without an operand or with
a decreasing range, unknown escapes, flags and properties, look-around and back
references, repeated group names, byte classes outside ASCII, nesting deeper than
`nestingLimit` and expressions with an automaton larger than `sizeLimit`.
-/

namespace RequestRouting.Regex

/-- The flags in force at a point of an expression. -/
structure Flags where
  /-- `i`: case makes no difference. -/
  caseless : Bool := false
  /-- `m`: anchors respect lines. -/
  multiLine : Bool := false
  /-- `s`: a dot accepts line feeds. -/
  dotAll : Bool := false
  /-- `U`: repetitions are lazy unless marked. -/
  swapGreed : Bool := false
  /-- `x`: blanks and comments are skipped. -/
  verbose : Bool := false
  /-- `R`: carriage returns end lines too. -/
  anyLineEnd : Bool := false
  /-- `u`: classes are those of all scripts, not only of ASCII. -/
  unicode : Bool := true
  deriving DecidableEq, Repr

/-- Sets the flag with the given letter. -/
def Flags.set? (flags : Flags) (letter : Char) (value : Bool) : Option Flags :=
  match letter with
  | 'i' => some { flags with caseless := value }
  | 'm' => some { flags with multiLine := value }
  | 's' => some { flags with dotAll := value }
  | 'U' => some { flags with swapGreed := value }
  | 'x' => some { flags with verbose := value }
  | 'R' => some { flags with anyLineEnd := value }
  | 'u' => some { flags with unicode := value }
  | _ => none

/-- Everything after the next line feed. -/
def skipComment : List Char → List Char
  | [] => []
  | c :: rest => if c = '\n' then rest else skipComment rest

/-- Drops blanks and comments; `fuel` is at least the length of the text. -/
def skipBlanksFrom : Nat → List Char → List Char
  | 0, text => text
  | _ + 1, [] => []
  | fuel + 1, c :: rest =>
      if Text.isBlank c then skipBlanksFrom fuel rest
      else if c = '#' then skipBlanksFrom fuel (skipComment rest)
      else c :: rest

namespace Flags

/-- Drops blanks and comments where the flags say that they do not count. -/
def skip (flags : Flags) (text : List Char) : List Char :=
  if flags.verbose then skipBlanksFrom text.length text else text

/-- The set without regard to case, if the flags ask for that. -/
def fold (flags : Flags) (set : CharSet) : CharSet :=
  if flags.caseless then
    if flags.unicode then .folded set else .asciiFolded set
  else set

/-- The character after the next one, past blanks where they do not count. -/
def peekSecond (flags : Flags) (text : List Char) : Option Char :=
  if flags.verbose then
    match (text.drop 1).dropWhile Text.isBlank with
    | '#' :: rest => (rest.dropWhile Text.isBlank).head?
    | rest => rest.head?
  else (text.drop 1).head?

end Flags

/-! ## Escapes -/

/-- What an escape or a plain character stands for. -/
inductive Atom
  | character (c : Char)
  | member (set : CharSet)
  | condition (edge : Look)

/-- The character with a given code point, unless that is a surrogate or too large. -/
def scalar? (code : Nat) : Option Char :=
  if h : code.isValidChar then some (Char.ofNatAux code h) else none

/-- Reads the given number of hexadecimal digits. -/
def readHexDigits (flags : Flags) : Nat → Nat → List Char → Option (Nat × List Char)
  | 0, value, text => some (value, text)
  | count + 1, value, c :: rest => do
      let digit ← hexValue? c
      readHexDigits flags count (value * 16 + digit) (flags.skip rest)
  | _ + 1, _, [] => none

/-- Reads up to a closing brace; `fuel` is at least the length of the text. -/
def readBraced (flags : Flags) : Nat → List Char → Option (List Char × List Char)
  | 0, _ => none
  | fuel + 1, text =>
      match flags.skip text with
      | [] => none
      | '\x7d' :: rest => some ([], rest)
      | c :: rest => do
          let (inner, rest) ← readBraced flags fuel rest
          some (c :: inner, rest)

/-- The character that a hexadecimal escape stands for, after the letter that
fixes the number of digits. -/
def readHex (flags : Flags) (digits : Nat) (text : List Char) : Option (Char × List Char) :=
  match flags.skip text with
  | '\x7b' :: rest => do
      let (inner, rest) ← readBraced flags rest.length.succ rest
      let values ← inner.mapM hexValue?
      if values.isEmpty then none
      let c ← scalar? (values.foldl (fun value digit => value * 16 + digit) 0)
      some (c, flags.skip rest)
  | text => do
      let (code, rest) ← readHexDigits flags digits 0 text
      let c ← scalar? code
      if !flags.unicode && digits == 2 && 0x7f < code then none
      some (c, rest)

/-- Splits a text at the first place where a separator starts. -/
def splitAtFirst (separator : List Char) : List Char → Option (List Char × List Char)
  | [] => none
  | c :: rest =>
      if separator.isPrefixOf (c :: rest) then some ([], (c :: rest).drop separator.length)
      else (splitAtFirst separator rest).map fun (before, after) => (c :: before, after)

/-- The set of a property in braces, and whether its name asks for the opposite. -/
def bracedProperty? (name : List Char) : Option (CharSet × Bool) :=
  match splitAtFirst ['!', '='] name with
  | some (property, value) => (propertyValue? property value).map (·, true)
  | none =>
      match splitAtFirst [':'] name with
      | some (property, value) => (propertyValue? property value).map (·, false)
      | none =>
          match splitAtFirst ['='] name with
          | some (property, value) => (propertyValue? property value).map (·, false)
          | none => (propertyNamed? name).map (·, false)

/-- The set of a property escape, after its letter. -/
def readProperty (flags : Flags) (negated : Bool) (text : List Char) :
    Option (CharSet × List Char) := do
  if !flags.unicode then none
  let finish (set : CharSet) (negated : Bool) : CharSet :=
    if negated then .compl (flags.fold set) else flags.fold set
  match flags.skip text with
  | '\x7b' :: rest =>
      let (name, rest) ← readBraced flags rest.length.succ rest
      let (set, opposite) ← bracedProperty? name
      some (finish set (negated != opposite), rest)
  | '\\' :: _ => none
  | c :: rest =>
      let set ← propertyNamed? [c]
      some (finish set negated, flags.skip rest)
  | [] => none

/-- The class of a one-letter class escape. Without `unicode` the negated classes
are refused, as they would accept single bytes. -/
def letterClass? (flags : Flags) (letter : Char) : Option CharSet :=
  let digits : CharSet := if flags.unicode then .digit else .range '0' '9'
  let blanks : CharSet :=
    if flags.unicode then .blank else CharSet.ranges [('\t', '\r'), (' ', ' ')]
  let words : CharSet :=
    if flags.unicode then .word
    else CharSet.ranges [('0', '9'), ('A', 'Z'), ('_', '_'), ('a', 'z')]
  match letter with
  | 'd' => some digits
  | 's' => some blanks
  | 'w' => some words
  | 'D' => if flags.unicode then some (.compl digits) else none
  | 'S' => if flags.unicode then some (.compl blanks) else none
  | 'W' => if flags.unicode then some (.compl words) else none
  | _ => none

/-- The condition that `\b` with a name in braces stands for. -/
def namedBoundary? (ascii : Bool) (name : List Char) : Option Look :=
  match String.ofList name with
  | "start" => some (.wordStart ascii)
  | "end" => some (.wordEnd ascii)
  | "start-half" => some (.wordStartHalf ascii)
  | "end-half" => some (.wordEndHalf ascii)
  | _ => none

/-- Reads what follows `\b`: a boundary name in braces, or nothing. Braces that
start with another character belong to a repetition. -/
def readBoundary (flags : Flags) (text : List Char) : Option (Look × List Char) :=
  let isNameChar (c : Char) : Bool := c.isAlpha || c == '-'
  match text with
  | '\x7b' :: rest =>
      match flags.skip rest with
      | [] => none
      | c :: _ =>
          if isNameChar c then do
            let (name, rest) ← readBraced flags rest.length.succ rest
            let condition ← namedBoundary? (!flags.unicode) name
            some (condition, rest)
          else some (.wordEdge (!flags.unicode), text)
  | _ => some (.wordEdge (!flags.unicode), text)

/-- Characters that an escape makes plain: ASCII other than letters, digits and
angle brackets. -/
def isEscapable (c : Char) : Bool :=
  c.toNat < 128 && !c.isAlphanum && c != '<' && c != '>'

/-- Reads an escape, after its backslash. -/
def readEscape (flags : Flags) : List Char → Option (Atom × List Char)
  | [] => none
  | c :: rest =>
      match c with
      | 'x' => (readHex flags 2 rest).map fun (c, rest) => (.character c, rest)
      | 'u' => (readHex flags 4 rest).map fun (c, rest) => (.character c, rest)
      | 'U' => (readHex flags 8 rest).map fun (c, rest) => (.character c, rest)
      | 'p' => (readProperty flags false rest).map fun (set, rest) => (.member set, rest)
      | 'P' => (readProperty flags true rest).map fun (set, rest) => (.member set, rest)
      | 'a' => some (.character '\x07', rest)
      | 'f' => some (.character '\x0c', rest)
      | 't' => some (.character '\t', rest)
      | 'n' => some (.character '\n', rest)
      | 'r' => some (.character '\r', rest)
      | 'v' => some (.character '\x0b', rest)
      | 'A' => some (.condition .textStart, rest)
      | 'z' => some (.condition .textEnd, rest)
      | 'b' => (readBoundary flags rest).map fun (edge, rest) => (.condition edge, rest)
      | 'B' => some (.condition (.noWordEdge (!flags.unicode)), rest)
      | '<' => some (.condition (.wordStart (!flags.unicode)), rest)
      | '>' => some (.condition (.wordEnd (!flags.unicode)), rest)
      | _ =>
          if isEscapable c then some (.character c, rest)
          else (letterClass? flags c).map fun set => (.member set, rest)

/-! ## Bracketed classes -/

/-- The operators between the parts of a bracketed class. -/
inductive SetOp
  | inter
  | diff
  | symmDiff

/-- The set that an operator builds. -/
def SetOp.apply (flags : Flags) (op : SetOp) (a b : CharSet) : CharSet :=
  match op with
  | inter => .inter (flags.fold a) (flags.fold b)
  | diff => .diff (flags.fold a) (flags.fold b)
  | symmDiff => .symmDiff (flags.fold a) (flags.fold b)

/-- A set with the depth of its nesting. -/
structure Nested where
  set : CharSet
  depth : Nat

/-- The union of items, latest first; two or more items nest one level deeper. -/
def unite : List Nested → Nested
  | [] => ⟨.none, 0⟩
  | [item] => item
  | items =>
      ⟨items.foldl (fun set item => .union item.set set) .none,
        1 + items.foldl (fun depth item => max depth item.depth) 0⟩

/-- A class on the way: its items since the last operator, latest first, and the
operator that waits for its right side. -/
structure OpenClass where
  negated : Bool
  items : List Nested
  waiting : Option (SetOp × Nested)

namespace OpenClass

/-- Adds an item. -/
def push (cls : OpenClass) (item : Nested) : OpenClass :=
  { cls with items := item :: cls.items }

/-- The set up to here, with the waiting operator applied. -/
def operand (flags : Flags) (cls : OpenClass) : Nested :=
  match cls.waiting with
  | none => unite cls.items
  | some (op, left) =>
      let right := unite cls.items
      ⟨op.apply flags left.set right.set, 1 + max left.depth right.depth⟩

/-- Starts the right side of an operator. Operators group to the left. -/
def operator (flags : Flags) (cls : OpenClass) (op : SetOp) : OpenClass :=
  { cls with items := [], waiting := some (op, cls.operand flags) }

/-- The finished class. -/
def close (flags : Flags) (cls : OpenClass) : Option Nested :=
  let inner := cls.operand flags
  let set := flags.fold inner.set
  if cls.negated then
    if flags.unicode then some ⟨.compl set, 1 + inner.depth⟩ else none
  else some ⟨set, 1 + inner.depth⟩

end OpenClass

/-- Reads leading hyphens as themselves; `fuel` is more than the length of the text. -/
def readHyphens (flags : Flags) :
    Nat → OpenClass → List Char → Option (OpenClass × List Char)
  | 0, cls, text => some (cls, text)
  | fuel + 1, cls, text =>
      match text with
      | '-' :: rest => readHyphens flags fuel (cls.push ⟨.single '-', 0⟩) (flags.skip rest)
      | [] => none
      | _ => some (cls, text)

/-- Reads the start of a class, after its bracket: the negation, hyphens, and a
closing bracket in first place, which stands for itself. -/
def openClass (flags : Flags) (text : List Char) : Option (OpenClass × List Char) := do
  let text := flags.skip text
  let (negated, text) :=
    match text with
    | '^' :: rest => (true, flags.skip rest)
    | _ => (false, text)
  let (cls, text) ← readHyphens flags text.length.succ ⟨negated, [], none⟩ text
  match text with
  | [] => none
  | ']' :: rest =>
      if cls.items.isEmpty then
        match flags.skip rest with
        | [] => none
        | rest => some (cls.push ⟨.single ']', 0⟩, rest)
      else some (cls, text)
  | _ => some (cls, text)

/-- An ASCII class by its name, perhaps negated. -/
structure AsciiClass where
  negated : Bool
  set : CharSet

/-- The item that a named ASCII class is. Case is left out of account before the negation.
Outside `unicode` the negated classes are refused, as they would accept single bytes. -/
def AsciiClass.toItem? (flags : Flags) (named : AsciiClass) : Option Nested :=
  let set := flags.fold named.set
  if named.negated then
    if flags.unicode then some ⟨.compl set, 0⟩ else none
  else some ⟨set, 0⟩

/-- Reads the name of an ASCII class, after its colon and the negation. -/
def readAsciiName (negated : Bool) (text : List Char) : Option (AsciiClass × List Char) :=
  match splitAtFirst [':'] text with
  | some (name, ']' :: rest) =>
      (CharSet.ofAsciiName? (String.ofList name)).map fun set => (⟨negated, set⟩, rest)
  | _ => none

/-- Reads a named ASCII class, after its opening bracket, if there is one. -/
def readAsciiClass : List Char → Option (AsciiClass × List Char)
  | ':' :: '^' :: rest => readAsciiName true rest
  | ':' :: rest => readAsciiName false rest
  | _ => none

/-- Reads an escape or a plain character. -/
def readAtom (flags : Flags) : List Char → Option (Atom × List Char)
  | [] => none
  | '\\' :: rest => readEscape flags rest
  | c :: rest => some (.character c, rest)

/-- The item that an atom is in a class. Outside `unicode`, only ASCII. -/
def Atom.toItem? (flags : Flags) : Atom → Option Nested
  | .character c => if flags.unicode || c.toNat < 128 then some ⟨.single c, 0⟩ else none
  | .member set => some ⟨set, 0⟩
  | .condition _ => none

/-- Reads one item of a class: a character, a class escape, or a range. -/
def readItem (flags : Flags) (text : List Char) : Option (Nested × List Char) := do
  let (first, rest) ← readAtom flags text
  let rest := flags.skip rest
  match rest with
  | [] => none
  | '-' :: tail =>
      let after := flags.peekSecond rest
      if after == some ']' || after == some '-' then
        (first.toItem? flags).map (·, rest)
      else
        let (last, rest) ← readAtom flags (flags.skip tail)
        match first, last with
        | .character low, .character high =>
            if low ≤ high && (flags.unicode || high.toNat < 128) then
              some (⟨.range low high, 0⟩, rest)
            else none
        | _, _ => none
  | _ => (first.toItem? flags).map (·, rest)

/-- Reads a class to the bracket that closes it. `outer` holds the enclosing
classes, innermost first; `fuel` is at least the length of the text. -/
def readClassFrom (flags : Flags) :
    Nat → List OpenClass → OpenClass → List Char → Option (Nested × List Char)
  | 0, _, _, _ => none
  | fuel + 1, outer, cls, text =>
      match flags.skip text with
      | [] => none
      | '[' :: rest =>
          match readAsciiClass rest with
          | some (named, rest) => do
              let item ← named.toItem? flags
              readClassFrom flags fuel outer (cls.push item) rest
          | none => do
              let (inner, rest) ← openClass flags rest
              readClassFrom flags fuel (cls :: outer) inner rest
      | ']' :: rest => do
          let closed ← cls.close flags
          match outer with
          | [] => some (closed, rest)
          | parent :: outer => readClassFrom flags fuel outer (parent.push closed) rest
      | '&' :: '&' :: rest => readClassFrom flags fuel outer (cls.operator flags .inter) rest
      | '-' :: '-' :: rest => readClassFrom flags fuel outer (cls.operator flags .diff) rest
      | '~' :: '~' :: rest => readClassFrom flags fuel outer (cls.operator flags .symmDiff) rest
      | text => do
          let (item, rest) ← readItem flags text
          readClassFrom flags fuel outer (cls.push item) rest

/-- Reads a class, after its opening bracket. -/
def readClass (flags : Flags) (text : List Char) : Option (Nested × List Char) := do
  let (cls, rest) ← openClass flags text
  readClassFrom flags rest.length.succ [] cls rest

/-! ## Pieces and groups -/

/-- A part of a branch: its expression, its depth, and whether it is a mere change
of flags, which no repetition can follow. -/
structure Piece where
  node : Regex
  depth : Nat
  directive : Bool := false

/-- The sequence of pieces, latest first. -/
def sequence : List Piece → Piece
  | [] => ⟨.empty, 0, false⟩
  | [piece] => { piece with directive := false }
  | pieces =>
      let nodes := (pieces.filter (!·.directive)).map (·.node)
      let depth := 1 + pieces.foldl (fun depth piece => max depth piece.depth) 0
      match nodes.reverse with
      | [] => ⟨.empty, depth, false⟩
      | first :: nodes => ⟨nodes.foldl .seq first, depth, false⟩

/-- The choice between branches, latest first. -/
def choice : List Piece → Piece
  | [] => ⟨.empty, 0, false⟩
  | [branch] => branch
  | last :: branches =>
      ⟨branches.foldl (fun node branch => .alt branch.node node) last.node,
        1 + branches.foldl (fun depth branch => max depth branch.depth) last.depth, false⟩

/-- What an opening parenthesis starts: a numbered group, perhaps named, or a
group that captures nothing. -/
inductive GroupKind
  | plain
  | capturing (number : Nat) (name : Option String)

/-- A group that waits for its end: what was read before it at the level around. -/
structure Frame where
  kind : GroupKind
  flags : Flags
  pieces : List Piece
  branches : List Piece

/-- Where reading has got to. -/
structure Reading where
  flags : Flags := {}
  pieces : List Piece := []
  branches : List Piece := []
  frames : List Frame := []
  /-- Number of the latest capturing group. -/
  groups : Nat := 0
  names : List String := []

namespace Reading

/-- Adds a piece to the current branch. -/
def push (state : Reading) (piece : Piece) : Reading :=
  { state with pieces := piece :: state.pieces }

/-- Closes the current branch at a bar. -/
def bar (state : Reading) : Reading :=
  { state with pieces := [], branches := sequence state.pieces :: state.branches }

/-- The expression read at the current level. -/
def level (state : Reading) : Piece :=
  choice (sequence state.pieces :: state.branches)

/-- Opens a group under the given flags. -/
def openGroup (state : Reading) (kind : GroupKind) (flags : Flags) : Reading :=
  { state with
    flags, pieces := [], branches := []
    frames := ⟨kind, state.flags, state.pieces, state.branches⟩ :: state.frames }

/-- Closes the innermost group and brings back the flags from before it. -/
def closeGroup (state : Reading) : Option Reading :=
  match state.frames with
  | [] => none
  | frame :: frames =>
      let inner := state.level
      let node :=
        match frame.kind with
        | .plain => inner.node
        | .capturing number name => .group number name inner.node
      some { state with
        flags := frame.flags
        pieces := ⟨node, 1 + inner.depth, false⟩ :: frame.pieces
        branches := frame.branches, frames }

/-- Puts the last piece under a repetition. No rounds at all leave nothing of it,
groups included. -/
def repeatLast (state : Reading) (least : Nat) (most : Option Nat) (greedy : Bool) :
    Option Reading :=
  match state.pieces with
  | [] => none
  | piece :: pieces =>
      if piece.directive then none
      else
        let node :=
          if least == 0 && most == some 0 then .empty
          else .many least most (greedy != state.flags.swapGreed) piece.node
        some { state with pieces := ⟨node, 1 + piece.depth, false⟩ :: pieces }

end Reading

/-- Reads the flags of a group up to the colon or parenthesis that ends them: the
flags then in force, whether any were given, and which end it was. -/
def readFlags (flags : Flags) (seen : List Char) (negated dangling : Bool) :
    List Char → Option (Flags × Bool × Char × List Char)
  | [] => none
  | c :: rest =>
      if c == ':' || c == ')' then
        if dangling then none else some (flags, !seen.isEmpty || negated, c, rest)
      else if c == '-' then
        if negated then none else readFlags flags seen true true rest
      else if seen.contains c then none
      else do
        let flags ← flags.set? c !negated
        readFlags flags (c :: seen) negated false rest

/-- Characters of group names; the first may be no digit, dot or bracket. -/
def isGroupNameChar (first : Bool) (c : Char) : Bool :=
  c == '_' || Text.isAlphabetic c ||
    (!first && (Text.isNumeric c || c == '.' || c == '[' || c == ']'))

/-- Reads a group name to its angle bracket. -/
def readGroupName (first : Bool) : List Char → Option (List Char × List Char)
  | [] => none
  | c :: rest =>
      if c == '>' then some ([], rest)
      else if isGroupNameChar first c then
        (readGroupName false rest).map fun (name, rest) => (c :: name, rest)
      else none

/-- Opens a named group, after the angle bracket. -/
def openNamed (state : Reading) (text : List Char) : Option (Reading × List Char) := do
  let (name, rest) ← readGroupName true text
  let name := String.ofList name
  if name.isEmpty || state.names.contains name then none
  let number := state.groups + 1
  let state := { state with groups := number, names := name :: state.names }
  some (state.openGroup (.capturing number (some name)) state.flags, rest)

/-- Reads what an opening parenthesis starts. -/
def readGroup (state : Reading) (text : List Char) : Option (Reading × List Char) :=
  match state.flags.skip text with
  | '?' :: '=' :: _ => none
  | '?' :: '!' :: _ => none
  | '?' :: '<' :: '=' :: _ => none
  | '?' :: '<' :: '!' :: _ => none
  | '?' :: 'P' :: '<' :: rest => openNamed state rest
  | '?' :: '<' :: rest => openNamed state rest
  | '?' :: rest => do
      let (flags, given, stop, rest) ← readFlags state.flags [] false false rest
      if stop == ':' then some (state.openGroup .plain flags, rest)
      else if given then some ({ state with flags }.push ⟨.empty, 0, true⟩, rest)
      else none
  | rest =>
      let number := state.groups + 1
      some ({ state with groups := number }.openGroup (.capturing number none) state.flags, rest)

/-- Reads decimal digits and their value; `fuel` is at least the length of the text. -/
def readDigits (flags : Flags) : Nat → Option Nat → List Char → Option Nat × List Char
  | 0, value, text => (value, text)
  | fuel + 1, value, text =>
      match text with
      | c :: rest =>
          if c.isDigit then
            readDigits flags fuel (some (value.getD 0 * 10 + (c.toNat - '0'.toNat)))
              (flags.skip rest)
          else (value, text)
      | [] => (value, text)

/-- Reads a bound of a repetition with the blanks around it. -/
def readBound (flags : Flags) (text : List Char) : Option (Nat × List Char) :=
  let text := text.dropWhile Text.isBlank
  match readDigits flags text.length none text with
  | (some value, rest) =>
      if value < Nat.pow 2 32 then some (value, flags.skip (rest.dropWhile Text.isBlank)) else none
  | (none, _) => none

/-- Whether a question mark makes the repetition before it lazy. -/
def readLazy : List Char → Bool × List Char
  | '?' :: rest => (false, rest)
  | text => (true, text)

/-- Reads a counted repetition, after its brace. -/
def readCounted (state : Reading) (text : List Char) : Option (Reading × List Char) := do
  let flags := state.flags
  let (least, rest) ← readBound flags (flags.skip text)
  let (most, rest) ←
    match rest with
    | ',' :: rest =>
        match flags.skip rest with
        | '\x7d' :: rest => some (none, rest)
        | rest => do
            let (most, rest) ← readBound flags rest
            match rest with
            | '\x7d' :: rest => some (some most, rest)
            | _ => none
    | '\x7d' :: rest => some (some least, rest)
    | _ => none
  if most.any (· < least) then none
  let (greedy, rest) := readLazy (flags.skip rest)
  let state ← state.repeatLast least most greedy
  some (state, rest)

/-- The expression for an atom outside a class. -/
def Atom.node (flags : Flags) : Atom → Regex
  | .character c => .chars (flags.fold (.single c))
  | .member set => .chars set
  | .condition edge => .look edge

/-- The set of a dot. -/
def dot? (flags : Flags) : Option CharSet :=
  if !flags.unicode then none
  else if flags.dotAll then some CharSet.all
  else if flags.anyLineEnd then some (CharSet.except ['\r', '\n'])
  else some (CharSet.except ['\n'])

/-- Reads the element that starts with the given character. -/
def step (state : Reading) (c : Char) (rest : List Char) : Option (Reading × List Char) :=
  let flags := state.flags
  let counted (least : Nat) (most : Option Nat) : Option (Reading × List Char) := do
    let (greedy, rest) := readLazy rest
    let state ← state.repeatLast least most greedy
    some (state, rest)
  match c with
  | '(' => readGroup state rest
  | ')' => state.closeGroup.map (·, rest)
  | '|' => some (state.bar, rest)
  | '[' => (readClass flags rest).map fun (cls, rest) =>
      (state.push ⟨.chars cls.set, cls.depth, false⟩, rest)
  | '?' => counted 0 (some 1)
  | '*' => counted 0 none
  | '+' => counted 1 none
  | '\x7b' => readCounted state rest
  | '\\' => (readEscape flags rest).map fun (atom, rest) =>
      (state.push ⟨atom.node flags, 0, false⟩, rest)
  | '.' => (dot? flags).map fun set => (state.push ⟨.chars set, 0, false⟩, rest)
  | '^' =>
      let edge : Look :=
        if flags.multiLine then if flags.anyLineEnd then .lineStartAny else .lineStart
        else .textStart
      some (state.push ⟨.look edge, 0, false⟩, rest)
  | '$' =>
      let edge : Look :=
        if flags.multiLine then if flags.anyLineEnd then .lineEndAny else .lineEnd
        else .textEnd
      some (state.push ⟨.look edge, 0, false⟩, rest)
  | c => some (state.push ⟨(Atom.character c).node flags, 0, false⟩, rest)

/-- Reads to the end; `fuel` is at least the length of the text. -/
def readFrom : Nat → Reading → List Char → Option Reading
  | 0, state, text => if (state.flags.skip text).isEmpty then some state else none
  | fuel + 1, state, text =>
      match state.flags.skip text with
      | [] => some state
      | c :: rest => do
          let (state, rest) ← step state c rest
          readFrom fuel state rest

/-- How deep an expression may nest. -/
def nestingLimit : Nat := 250

/-- Reads an expression. -/
def readChars? (text : List Char) : Option Regex := do
  let state ← readFrom text.length {} text
  if !state.frames.isEmpty then none
  let whole := state.level
  if nestingLimit < whole.depth || sizeLimit < whole.node.weight then none
  some whole.node

/-- Reads an expression from its text. -/
def read? (text : String) : Option Regex := readChars? text.toList

/-- Characters that mean something in an expression. -/
def isMeta (c : Char) : Bool :=
  ['\\', '.', '+', '*', '?', '(', ')', '|', '[', ']', '\x7b', '\x7d', '^', '$', '#', '&',
    '-', '~'].contains c

/-- The expression text that accepts exactly the given text. -/
def escape : List Char → List Char
  | [] => []
  | c :: rest => if isMeta c then '\\' :: c :: escape rest else c :: escape rest

end RequestRouting.Regex
