import RequestRouting.Text.Quoted

/-!
# Pattern errors

Why a pattern text is refused, and why a path yields no parameters. Every cause
is reported together with the pattern text as it was declared.
-/

namespace RequestRouting

/-- The openings that the kinds of patterns ask for. -/
inductive Opening
  | slash
  | slashOrStar
  | slashGroupOrAnchor
  deriving DecidableEq, Repr

/-- The openings as they are listed in messages. -/
def Opening.text : Opening → String
  | slash => "'/'"
  | slashOrStar => "'/' or '*'"
  | slashGroupOrAnchor => "'/', '(' or '^'"

/-- What is wrong with a pattern text. -/
inductive PatternFault
  | invalidOpening (expected : Opening)
  | leadingQuantifier (quantifier : Char)
  | invalidExpression
  | unbalancedBrace
  | invalidParameter (name : String)
  | duplicateParameter (name : String)
  | invalidWildcard
  deriving DecidableEq, Repr

/-- A refused pattern text with the reason. -/
structure PatternError where
  pattern : String
  fault : PatternFault
  deriving DecidableEq, Repr

namespace PatternError

/-- The message of a refused pattern. -/
def message (e : PatternError) : String :=
  let subject := "'" ++ e.pattern ++ "' "
  match e.fault with
  | .invalidOpening expected => subject ++ "must be empty or start with " ++ expected.text
  | .leadingQuantifier quantifier =>
      subject ++ "starts with the quantifier '" ++ quantifier.toString ++ "'"
  | .invalidExpression => subject ++ "is not a valid regular expression"
  | .unbalancedBrace => subject ++ "has unbalanced braces"
  | .invalidParameter name => subject ++ "declares an invalid parameter name '" ++ name ++ "'"
  | .duplicateParameter name =>
      subject ++ "declares parameter '" ++ name ++ "' more than once"
  | .invalidWildcard => subject ++ "contains an invalid wildcard run"

/-- The name of the cause. -/
def kind (e : PatternError) : String :=
  match e.fault with
  | .invalidOpening _ => "InvalidPrefix"
  | .leadingQuantifier _ => "QuantifierPrefix"
  | .invalidExpression => "InvalidRegex"
  | .unbalancedBrace => "UnbalancedBrace"
  | .invalidParameter _ => "InvalidParameter"
  | .duplicateParameter _ => "DuplicateParameter"
  | .invalidWildcard => "InvalidWildcard"

/-- The cause with its data, for diagnostics. -/
def debug (e : PatternError) : String :=
  let details : List (String × String) :=
    match e.fault with
    | .invalidOpening expected => [("expected", Text.quoted expected.text)]
    | .leadingQuantifier quantifier => [("quantifier", "'" ++ quantifier.toString ++ "'")]
    | .invalidParameter name | .duplicateParameter name => [("name", Text.quoted name)]
    | .invalidExpression | .unbalancedBrace | .invalidWildcard => []
  Text.recordText e.kind (("pattern", Text.quoted e.pattern) :: details)

end PatternError

/-- A path from which a pattern extracts nothing, because it does not match. -/
structure PathError where
  path : String
  pattern : String
  deriving DecidableEq, Repr

namespace PathError

/-- The message of a path that does not match. -/
def message (e : PathError) : String :=
  "path '" ++ e.path ++ "' does not match pattern '" ++ e.pattern ++ "'"

/-- The mismatch with its data, for diagnostics. -/
def debug (e : PathError) : String :=
  Text.recordText "InvalidPath"
    [("path", Text.quoted e.path), ("pattern", Text.quoted e.pattern)]

end PathError

end RequestRouting
