import RequestRouting.Http.Invalid
import RequestRouting.Http.Token
import RequestRouting.Text.Quoted
import RequestRouting.Text.Utf8

/-!
# Headers

A message has a list of named values. A name is a token and does not depend on case;
it can have several values, whose order matters. A value is a run of bytes without
control characters other than the tab.
-/

namespace RequestRouting.Http

/-- The name of a header, in lower case. -/
structure HeaderName where
  text : String
  isToken_text : isToken text = true

/-- Names are the same when their texts are. -/
theorem HeaderName.eq_iff {name other : HeaderName} : name = other ↔ name.text = other.text := by
  cases name
  cases other
  simp

instance : DecidableEq HeaderName := fun _ _ => decidable_of_iff _ HeaderName.eq_iff.symm

/-- The most bytes that a header name has. -/
def HeaderName.sizeLimit : Nat := 65535

/-- The header name that a text stands for. -/
def HeaderName.ofText? (text : String) : Option HeaderName :=
  if h : isToken (lowerCase text) = true then
    if text.utf8ByteSize ≤ sizeLimit then some ⟨lowerCase text, h⟩ else none
  else none

/-- The header name that a text stands for, or the reason why it is none. -/
def HeaderName.ofText (text : String) : Except InvalidValue HeaderName :=
  match ofText? text with
  | some name => .ok name
  | none => .error (.headerName text)

namespace HeaderName

/-- The header `content-type`. -/
def contentType : HeaderName := ⟨"content-type", by decide⟩

/-- The header `accept`. -/
def accept : HeaderName := ⟨"accept", by decide⟩

/-- The header `authorization`. -/
def authorization : HeaderName := ⟨"authorization", by decide⟩

/-- The header `cookie`. -/
def cookie : HeaderName := ⟨"cookie", by decide⟩

/-- The header `set-cookie`. -/
def setCookie : HeaderName := ⟨"set-cookie", by decide⟩

/-- The header `x-request-id`. -/
def requestId : HeaderName := ⟨"x-request-id", by decide⟩

end HeaderName

/-- Bytes of header values. -/
def isHeaderByte (byte : UInt8) : Bool :=
  (0x20 ≤ byte && byte != 0x7f) || byte == 0x09

/-- Bytes of header values that are text: visible ASCII, spaces and tabs. -/
def isTextByte (byte : UInt8) : Bool :=
  (0x20 ≤ byte && byte < 0x7f) || byte == 0x09

/-- The value of a header. -/
structure HeaderValue where
  bytes : Bytes
  all_isHeaderByte : bytes.all isHeaderByte = true
  deriving DecidableEq

namespace HeaderValue

/-- The header value of given bytes. -/
def ofBytes? (bytes : Bytes) : Option HeaderValue :=
  if h : bytes.all isHeaderByte = true then some ⟨bytes, h⟩ else none

/-- The text of a value that consists of text bytes. -/
def text? (value : HeaderValue) : Option String :=
  if value.bytes.all isTextByte then
    some (String.ofList (value.bytes.map fun byte => Char.ofNat byte.toNat))
  else none

/-- A byte of a value for diagnostics. -/
def debugByte (byte : UInt8) : String :=
  if byte = 0x22 then "\\\""
  else if isTextByte byte then String.singleton (Char.ofNat byte.toNat)
  else "\\x" ++ Text.hexText byte.toNat

/-- A value for diagnostics. -/
def debug (value : HeaderValue) : String :=
  "\"" ++ String.join (value.bytes.map debugByte) ++ "\""

/-- The value of plain texts. -/
def plainText : HeaderValue := ⟨Utf8.encode "text/plain; charset=utf-8", by decide⟩

end HeaderValue

/-- The headers of a message. -/
structure Headers where
  entries : List (HeaderName × HeaderValue) := []
  deriving DecidableEq

namespace Headers

/-- No headers. -/
def empty : Headers := ⟨[]⟩

/-- The values of a name, in order. -/
def getAll (h : Headers) (name : HeaderName) : List HeaderValue :=
  (h.entries.filter (·.1 == name)).map (·.2)

/-- The first value of a name. -/
def get? (h : Headers) (name : HeaderName) : Option HeaderValue := (h.getAll name).head?

/-- Whether a name has a value. -/
def contains (h : Headers) (name : HeaderName) : Bool := h.entries.any (·.1 == name)

/-- Adds a value after those that the name has. -/
def append (h : Headers) (name : HeaderName) (value : HeaderValue) : Headers :=
  ⟨h.entries ++ [(name, value)]⟩

/-- Removes all values of a name. -/
def erase (h : Headers) (name : HeaderName) : Headers :=
  ⟨h.entries.filter (·.1 != name)⟩

/-- Makes a value the only one of its name. -/
def insert (h : Headers) (name : HeaderName) (value : HeaderValue) : Headers :=
  (h.erase name).append name value

/-- Gives a name a value unless it has one. -/
def insertAbsent (h : Headers) (name : HeaderName) (value : HeaderValue) : Headers :=
  if h.contains name then h else h.append name value

/-- The names, each once, in order of first appearance. -/
def names (h : Headers) : List HeaderName := (h.entries.map (·.1)).eraseDups

/-- The first value of the name that a text stands for. -/
def lookup? (h : Headers) (text : String) : Option HeaderValue :=
  (HeaderName.ofText? text).bind h.get?

/-- The media type of the body, if it is given as text. -/
def contentType? (h : Headers) : Option String :=
  (h.get? .contentType).bind HeaderValue.text?

theorem getAll_append (h : Headers) (name other : HeaderName) (value : HeaderValue) :
    (h.append name value).getAll other =
      if name = other then h.getAll other ++ [value] else h.getAll other := by
  by_cases hname : name = other <;> simp [append, getAll, hname]

theorem contains_eq (h : Headers) (name : HeaderName) :
    h.contains name = !(h.getAll name).isEmpty := by
  obtain ⟨entries⟩ := h
  induction entries with
  | nil => rfl
  | cons entry entries ih =>
      by_cases hentry : entry.1 = name <;> simp_all [contains, getAll]

end Headers

end RequestRouting.Http
