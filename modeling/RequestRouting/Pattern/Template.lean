import RequestRouting.Pattern.Expression

/-!
# Template patterns

A template is text with wildcards and placeholders: `*` takes a run within one
segment, `**` any run, `{name}` one non-empty segment, and `{name:expression}`
whatever the expression accepts. A template is first read into its elements;
each element has an expression text, and the template matches as the sequence of
these does.
-/

namespace RequestRouting.Pattern

namespace Template

/-- An element of a template. -/
inductive Element
  /-- Text that stands for itself. -/
  | literal (text : List Char)
  /-- `*` -/
  | segment
  /-- `**` -/
  | anything
  /-- A placeholder with the expression that its value has to match, if it names one. -/
  | parameter (name : List Char) (constraint : Option (List Char))
  deriving DecidableEq, Repr

/-- Placeholder names are identifiers of ASCII letters, digits and underscores. -/
def isIdentifier : List Char → Bool
  | [] => false
  | first :: rest =>
      (first.isAlpha || first == '_') && rest.all fun c => c.isAlphanum || c == '_'

/-- Reads the inside of a placeholder, after its brace. Braces inside it nest;
`depth` counts those open. -/
def readPlaceholder (depth : Nat) : List Char → Option (List Char × List Char)
  | [] => none
  | '\x7b' :: rest =>
      (readPlaceholder (depth + 1) rest).map fun (inner, rest) => ('\x7b' :: inner, rest)
  | '\x7d' :: rest =>
      match depth with
      | 0 => some ([], rest)
      | depth + 1 =>
          (readPlaceholder depth rest).map fun (inner, rest) => ('\x7d' :: inner, rest)
  | c :: rest => (readPlaceholder depth rest).map fun (inner, rest) => (c :: inner, rest)

/-- What follows a placeholder is shorter than what followed its brace. -/
theorem length_of_readPlaceholder {depth : Nat} {text inner rest : List Char}
    (hread : readPlaceholder depth text = some (inner, rest)) :
    rest.length < text.length := by
  fun_induction readPlaceholder depth text generalizing inner rest with
  | case1 => simp at hread
  | case2 depth tail ih =>
      obtain ⟨⟨_, after⟩, hinner, hpair⟩ := Option.map_eq_some_iff.1 hread
      cases hpair
      exact Nat.lt_succ_of_lt (ih hinner)
  | case3 tail =>
      cases hread
      exact Nat.lt_succ_self _
  | case4 tail depth ih =>
      obtain ⟨⟨_, after⟩, hinner, hpair⟩ := Option.map_eq_some_iff.1 hread
      cases hpair
      exact Nat.lt_succ_of_lt (ih hinner)
  | case5 depth c tail _ _ ih =>
      obtain ⟨⟨_, after⟩, hinner, hpair⟩ := Option.map_eq_some_iff.1 hread
      cases hpair
      exact Nat.lt_succ_of_lt (ih hinner)

/-- Splits the inside of a placeholder at its first colon. -/
def splitConstraint (inner : List Char) : List Char × Option (List Char) :=
  match inner.dropWhile (· != ':') with
  | [] => (inner, none)
  | _ :: constraint => (inner.takeWhile (· != ':'), some constraint)

/-- The placeholder with the given inside, unless its name is no identifier, its
constraint is empty, or its name is taken. -/
def placeholder (taken : List (List Char)) (inner : List Char) :
    Except PatternFault (List Char × Option (List Char)) :=
  let (name, constraint) := splitConstraint inner
  if !isIdentifier name || constraint == some [] then
    .error (.invalidParameter (String.ofList inner))
  else if taken.contains name then .error (.duplicateParameter (String.ofList name))
  else .ok (name, constraint)

/-- Puts a character before the elements, into a literal that they start with. -/
def consLiteral (c : Char) : List Element → List Element
  | .literal text :: elements => .literal (c :: text) :: elements
  | elements => .literal [c] :: elements

/-- Reads the elements of a template. `taken` are the names used so far. Faults are
reported from left to right. -/
def readElements (taken : List (List Char)) (text : List Char) :
    Except PatternFault (List Element) :=
  match text with
  | [] => .ok []
  | '\x7b' :: rest =>
      match hread : readPlaceholder 0 rest with
      | none => .error .unbalancedBrace
      | some (inner, after) => do
          have := length_of_readPlaceholder hread
          let (name, constraint) ← placeholder taken inner
          let elements ← readElements (name :: taken) after
          .ok (.parameter name constraint :: elements)
  | '\x7d' :: _ => .error .unbalancedBrace
  | '*' :: '*' :: '*' :: _ => .error .invalidWildcard
  | '*' :: '*' :: rest => do
      let elements ← readElements taken rest
      .ok (.anything :: elements)
  | '*' :: rest => do
      let elements ← readElements taken rest
      .ok (.segment :: elements)
  | c :: rest => do
      let elements ← readElements taken rest
      .ok (consLiteral c elements)
termination_by text.length
decreasing_by all_goals simp_all <;> omega

/-- The expression for one path segment. -/
def segmentBody : List Char := ['[', '^', '/', ']', '+']

/-- The expression text of an element. Every element but a literal captures. -/
def Element.body : Element → List Char
  | .literal text => Regex.escape text
  | .segment => ['(', '[', '^', '/', ']', '*', ')']
  | .anything => ['(', '.', '*', ')']
  | .parameter name constraint =>
      ['(', '?', 'P', '<'] ++ name ++ ['>'] ++ constraint.getD segmentBody ++ [')']

/-- The expression text of a sequence of elements. -/
def bodyOf (elements : List Element) : List Char :=
  elements.flatMap Element.body

end Template

/-- A template: its text, its elements, and the expression it matches with. -/
structure Template where
  text : String
  elements : List Template.Element
  expression : Expression

namespace Template

/-- A template is empty or starts with a slash or a wildcard. -/
def opensProperly : List Char → Bool
  | [] => true
  | c :: _ => c == '/' || c == '*'

/-- A template pattern from its text. -/
def ofText (text : String) (extent : Extent) : Except PatternError Template :=
  if !opensProperly text.toList then .error ⟨text, .invalidOpening .slashOrStar⟩
  else
    match readElements [] text.toList with
    | .error fault => .error ⟨text, fault⟩
    | .ok elements => do
        let source :=
          match extent with
          | .leading => bodyOf elements
          | .whole => bodyOf elements ++ ['$']
        let expression ← Expression.compile text source
        .ok ⟨text, elements, expression⟩

end Template

end RequestRouting.Pattern
