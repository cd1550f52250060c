import RequestRouting.Http.Invalid

/-!
# URIs

What a URI asks a server for: its path with the query, without the fragment. A URI is
`*`, a path, an authority on its own, or a scheme and an authority with an optional
path. Where there is neither path nor query, `/` is asked for.
-/

namespace RequestRouting.Http.Uri

/-- The most bytes that a URI has. -/
def sizeLimit : Nat := 65534

/-- The most characters that a scheme has. -/
def schemeLimit : Nat := 64

/-- Characters of schemes. -/
def isSchemeChar (c : Char) : Bool := c.isAlphanum || "+-.~".toList.contains c

/-- Characters of authorities. The percent sign is not one of them: where it may stand
is a question of its own. -/
def isAuthorityChar (c : Char) : Bool :=
  c.isAlphanum || "!$&'()*+,-.:;=@[]_~".toList.contains c

/-- Characters that need no escape in a path. Braces and double quotes are taken too,
and so is everything beyond ASCII. -/
def isPathChar (c : Char) : Bool :=
  !(c.toNat ≤ 0x20) && !"#<>?\x60".toList.contains c

/-- Characters that need no escape in a query. -/
def isQueryChar (c : Char) : Bool :=
  !(c.toNat ≤ 0x20) && !"\"#<>".toList.contains c

/-- What has been seen of an authority. The user information in front of an at sign
and an address in brackets may hold colons and percent signs of their own. -/
structure AuthorityScan where
  colons : Nat := 0
  bracketOpened : Bool := false
  bracketClosed : Bool := false
  percent : Bool := false

/-- Goes past one character of an authority. -/
def AuthorityScan.step? (scan : AuthorityScan) (c : Char) : Option AuthorityScan :=
  match c with
  | ':' => if scan.colons < 8 then some { scan with colons := scan.colons + 1 } else none
  | '[' =>
      if scan.percent || scan.bracketOpened then none
      else some { scan with bracketOpened := true }
  | ']' =>
      if scan.bracketOpened && !scan.bracketClosed then
        some { scan with bracketClosed := true, colons := 0, percent := false }
      else none
  | '@' => some { scan with colons := 0, percent := false }
  | '%' => some { scan with percent := true }
  | _ => if isAuthorityChar c then some scan else none

/-- Whether an authority is well formed: brackets in a pair, and after the user
information a host with at most one colon behind its brackets. -/
def isAuthority (authority : List Char) : Bool :=
  match authority.foldlM AuthorityScan.step? {} with
  | some scan =>
      scan.bracketOpened == scan.bracketClosed && decide (scan.colons ≤ 1) &&
        !scan.percent && authority.getLast? != some '@'
  | none => false

/-- The query up to the fragment. -/
def query? : List Char → Option (List Char)
  | [] | '#' :: _ => some []
  | c :: rest => if isQueryChar c then (query? rest).map (c :: ·) else none

/-- The path and the query up to the fragment. -/
def pathAndQuery? : List Char → Option (List Char)
  | [] | '#' :: _ => some []
  | '?' :: rest => (query? rest).map ('?' :: ·)
  | c :: rest => if isPathChar c then (pathAndQuery? rest).map (c :: ·) else none

/-- Splits an authority from what follows it. -/
def splitAuthority (text : List Char) : List Char × List Char :=
  text.span fun c => !"/?#".toList.contains c

/-- What a URI with a scheme asks for, from after the scheme on. -/
def afterScheme? (text : List Char) : Option (List Char) :=
  let (authority, rest) := splitAuthority text
  if !authority.isEmpty && isAuthority authority then
    (pathAndQuery? rest).map fun target => if target.isEmpty then ['/'] else target
  else none

/-- What the text of a URI asks for. -/
def targetOf? (text : List Char) : Option (List Char) :=
  match text with
  | [] => none
  | ['*'] => some ['*']
  | '/' :: _ => pathAndQuery? text
  | _ =>
      let (scheme, rest) := text.span isSchemeChar
      match rest with
      | ':' :: '/' :: '/' :: rest =>
          if scheme.length ≤ schemeLimit then afterScheme? rest else none
      | _ =>
          let (authority, rest) := splitAuthority text
          if rest.isEmpty && isAuthority authority then some ['/'] else none

/-- The path and query that a URI asks for. -/
def target (text : String) : Except InvalidValue String :=
  if text.utf8ByteSize ≤ sizeLimit then
    match targetOf? text.toList with
    | some target => .ok (String.ofList target)
    | none => .error (.uri text)
  else .error (.uri text)

end RequestRouting.Http.Uri
