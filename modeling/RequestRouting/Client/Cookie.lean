import RequestRouting.Http.Header

/-!
# Cookies

What a client remembers of the `Set-Cookie` headers of the responses it gets, and what
it says about it in the `Cookie` header of later requests. The jar keeps one cookie of
a name, in the order in which they were last received.
-/

namespace RequestRouting.Http

/-- A cookie. -/
structure Cookie where
  name : String
  value : String
  deriving DecidableEq, Repr

namespace Cookie

/-- Removes the characters of a class from both ends. -/
def trimBy (inClass : Char → Bool) (text : List Char) : List Char :=
  ((text.dropWhile inClass).reverse.dropWhile inClass).reverse

/-- Removes blanks from both ends. Header texts have no others than spaces and tabs. -/
def trim (text : List Char) : List Char := trimBy (fun c => c == ' ' || c == '\t') text

/-- The parts of a text between semicolons. -/
def splitParts : List Char → List (List Char)
  | [] => [[]]
  | c :: rest =>
      match splitParts rest with
      | [] => [[c]]
      | part :: parts => if c = ';' then [] :: part :: parts else (c :: part) :: parts

/-- A part as what stands before and after its first equals sign. -/
def splitPair? (part : List Char) : Option (List Char × List Char) :=
  match part.span (· != '=') with
  | (name, _ :: value) => some (name, value)
  | (_, []) => none

/-- Whether a part says that a cookie is to be forgotten at once. -/
def isExpiry (part : List Char) : Bool :=
  match splitPair? part with
  | some (name, value) =>
      (trim name).map Char.toLower == "max-age".toList && trim value == ['0']
  | none => false

/-- The cookie of a `Set-Cookie` header, and whether it is to be forgotten at once. The
first part gives name and value, which may stand in quotes; the name is not empty. -/
def ofSetCookie? (header : String) : Option (Cookie × Bool) :=
  match splitParts header.toList with
  | [] => none
  | pair :: others => do
      let (name, value) ← splitPair? pair
      let name := trim name
      if name.isEmpty then none
      else
        let value := trimBy (· == '\x22') (trim value)
        some (⟨String.ofList name, String.ofList value⟩, others.any isExpiry)

/-- The cookie as a request tells it. -/
def text (cookie : Cookie) : String := cookie.name ++ "=" ++ cookie.value

end Cookie

/-- The cookies that a client holds. -/
abbrev Jar := List Cookie

namespace Jar

/-- The value of the `Cookie` header, if there are cookies and they make a valid one. -/
def header? (jar : Jar) : Option HeaderValue :=
  if jar.isEmpty then none
  else HeaderValue.ofBytes? (Utf8.encode ("; ".intercalate (jar.map Cookie.text)))

/-- Puts a cookie in the place of the one of its name, at the end, or removes that one if
the cookie is to be forgotten. -/
def store (jar : Jar) (cookie : Cookie) (expired : Bool) : Jar :=
  jar.filter (·.name != cookie.name) ++ if expired then [] else [cookie]

/-- Takes notice of the value of a `Set-Cookie` header; `none` if it is malformed. -/
def receive? (jar : Jar) (value : HeaderValue) : Option Jar := do
  let (cookie, expired) ← value.text?.bind Cookie.ofSetCookie?
  some (jar.store cookie expired)

/-- The names of the cookies, each once. -/
def names (jar : Jar) : List String := (jar.map Cookie.name).eraseDups

/-- The cookie of a name; of several, the last. -/
def find? (jar : Jar) (name : String) : Option Cookie :=
  jar.reverse.find? (·.name == name)

end Jar

end RequestRouting.Http
