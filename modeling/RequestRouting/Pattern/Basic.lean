import RequestRouting.Pattern.Template

/-!
# Path patterns

A pattern is a literal, a template or an expression. Patterns are made from text,
matched against paths, and joined: the join of two patterns stands for "the outer
followed by the inner". Texts are joined as texts and read again; where one side
is an expression, the bodies are joined, each in a group of its own.
-/

namespace RequestRouting

/-- A path pattern. -/
inductive Pattern
  | literal (p : Pattern.Literal)
  | template (p : Pattern.Template)
  | expression (p : Pattern.Expression)

namespace Pattern

/-- Reads pattern text: a template if it has a brace or a star, else a literal. -/
def parse (text : String) (extent : Extent) : Except PatternError Pattern :=
  if text.toList.any fun c => c == '\x7b' || c == '*' then
    (Template.ofText text extent).map template
  else (Literal.ofText text extent).map literal

/-- The pattern with the given expression. -/
def ofExpression (text : String) : Except PatternError Pattern :=
  (Expression.ofText text).map expression

/-- The pattern that matches every path. -/
def any : Pattern := literal Literal.any

/-- The text as it was declared. -/
def text : Pattern → String
  | literal p => p.text
  | template p => p.text
  | expression p => p.text

/-- How much of a path the pattern covers. -/
def extent : Pattern → Extent
  | literal p => p.extent
  | template p => p.expression.extent
  | expression p => p.extent

/-- Whether a leading part of a path is enough. -/
def matchesLeading (p : Pattern) : Bool := p.extent == .leading

/-- The compiled expression, which literals lack. -/
def expression? : Pattern → Option Expression
  | literal _ => none
  | template p => some p.expression
  | expression p => some p

/-- The declared parameter names in order. -/
def parameters (p : Pattern) : List String :=
  (p.expression?.map Expression.parameters).getD []

/-- The number of capturing groups, where there is an expression. -/
def groupCount? (p : Pattern) : Option Nat :=
  p.expression?.map Expression.groupCount

/-- Whether matching can extract values. -/
def hasCaptures (p : Pattern) : Bool :=
  p.groupCount?.any (0 < ·)

/-- Whether the pattern matches a path. -/
def accepts : Pattern → String → Bool
  | literal p, path => p.accepts path
  | template p, path => p.expression.accepts path
  | expression p, path => p.accepts path

/-- The values that the pattern extracts from a path it matches. -/
def extract : Pattern → String → Except PathError Parameters
  | literal p, path => p.extract path
  | template p, path => p.expression.extract path
  | expression p, path => p.extract path

/-- The expression text of a pattern, without anchors. -/
def body : Pattern → List Char
  | literal p => Regex.escape p.text.toList
  | template p => p.expression.body
  | expression p => p.body

/-- The expression for one body after another, each in its own group. -/
def joinedBody (outer inner : Pattern) : List Char :=
  ['(', '?', ':'] ++ outer.body ++ [')', '(', '?', ':'] ++ inner.body ++ [')'] ++
    match inner.extent with
    | .whole => ['$']
    | .leading => []

/-- The pattern for `outer` followed by `inner`, with the extent of `inner`. -/
def join (outer inner : Pattern) : Except PatternError Pattern :=
  match outer, inner with
  | expression _, _ | _, expression _ => ofExpression (String.ofList (joinedBody outer inner))
  | _, _ => parse (outer.text ++ inner.text) inner.extent

end Pattern

end RequestRouting
