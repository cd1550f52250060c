import RequestRouting.Pattern.Literal
import RequestRouting.Regex.Match
import RequestRouting.Regex.Reader

/-!
# Expression patterns

A regular expression matched from the start of a path. It covers the whole path
when its text ends in an end anchor, and some leading part otherwise. The text
between the anchors, the body, is what is compiled and what patterns are joined
from.
-/

namespace RequestRouting.Pattern

/-- A compiled expression. `text` is what was declared, `body` the expression
between the anchors, `regex` the anchored expression. -/
structure Expression where
  text : String
  body : List Char
  extent : Extent
  regex : Regex

namespace Expression

/-- Whether an expression ends in a dollar that no backslash takes away: the run
of backslashes before it has even length. -/
def endsWithAnchor (body : List Char) : Bool :=
  match body.reverse with
  | '$' :: before => (before.takeWhile (· == '\\')).length % 2 == 0
  | _ => false

/-- A body between the anchors that its extent asks for. It stands in a group of
its own, so that the anchors hold for all its alternatives. -/
def anchored (body : List Char) : Extent → List Char
  | .leading => ['^', '(', '?', ':'] ++ body ++ [')']
  | .whole => ['^', '(', '?', ':'] ++ body ++ [')', '$']

/-- Compiles an expression without start anchor; `text` is what errors and
listings show. -/
def compile (text : String) (source : List Char) : Except PatternError Expression :=
  let extent : Extent := if endsWithAnchor source then .whole else .leading
  let body :=
    match extent with
    | .whole => source.dropLast
    | .leading => source
  match Regex.readChars? (anchored body extent) with
  | some regex => .ok ⟨text, body, extent, regex⟩
  | none => .error ⟨text, .invalidExpression⟩

/-- The expression without one start anchor. -/
def dropStartAnchor : List Char → List Char
  | '^' :: rest => rest
  | text => text

/-- An expression is empty or a mere end anchor, or starts with a slash or a
parenthesis; a start anchor before that makes no difference. -/
def openingFault (source : List Char) : Option PatternFault :=
  match source with
  | [] | ['$'] => none
  | c :: _ =>
      if c == '/' || c == '(' then none
      else if ['*', '+', '?', '\x7b'].contains c then some (.leadingQuantifier c)
      else some (.invalidOpening .slashGroupOrAnchor)

/-- An expression pattern from its text. -/
def ofText (text : String) : Except PatternError Expression :=
  let source := dropStartAnchor text.toList
  match openingFault source with
  | some fault => .error ⟨text, fault⟩
  | none => compile text source

/-- Names of the named groups in order. -/
def parameters (p : Expression) : List String := p.regex.names

/-- Number of capturing groups. -/
def groupCount (p : Expression) : Nat := p.regex.groupCount

/-- Whether the expression matches a path. -/
def accepts (p : Expression) (path : String) : Bool :=
  p.regex.isMatch path.toList

/-- The value of a group: the text it took, nothing if it took no part. -/
def groupValue (captured : List (Option (List Char))) (index : Nat) : String :=
  String.ofList ((captured[index]?.join).getD [])

/-- Extracts the value of every group under its position, counted from zero, and
of every named group under its name. -/
def extract (p : Expression) (path : String) : Except PathError Parameters :=
  match p.regex.captured path.toList with
  | none => .error ⟨path, p.text⟩
  | some captured =>
      let positional := (List.range captured.length).map fun index =>
        (toString index, groupValue captured index)
      let named := p.regex.groups.filterMap fun (number, name) =>
        name.map fun name => (name, groupValue captured (number - 1))
      .ok (positional ++ named)

end Expression

end RequestRouting.Pattern
