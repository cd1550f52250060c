import RequestRouting.Text.Utf8

/-!
# Query strings

Pairs of names and values written as one line of text: `name=value`, joined by `&`.
Letters, digits and `*-._` stand for themselves, a space is written `+`, and every
other byte of the UTF-8 form as `%` with two hexadecimal digits.

Reading takes more than writing gives: empty parts are passed over, a part without
`=` is a name with an empty value, a `%` without two digits stands for itself, and
bytes that are no UTF-8 become replacement characters.
-/

namespace RequestRouting.Http.Urlencoded

/-! ## Writing -/

/-- Bytes that stand for themselves. -/
def isPlain (byte : UInt8) : Bool :=
  (0x30 ≤ byte && byte ≤ 0x39) || (0x41 ≤ byte && byte ≤ 0x5a) ||
    (0x61 ≤ byte && byte ≤ 0x7a) ||
    byte == 0x2a || byte == 0x2d || byte == 0x2e || byte == 0x5f

/-- The upper-case hexadecimal digit of a number below sixteen. -/
def hexDigit (value : UInt8) : UInt8 :=
  if value < 10 then 0x30 + value else 0x41 + (value - 10)

/-- How a byte is written. -/
def encodeByte (byte : UInt8) : Bytes :=
  if isPlain byte then [byte]
  else if byte = 0x20 then [0x2b]
  else [0x25, hexDigit (byte / 16), hexDigit (byte % 16)]

/-- How a name or a value is written. -/
def encode (text : String) : Bytes := (Utf8.encode text).flatMap encodeByte

/-- How a pair is written. -/
def encodePair (pair : String × String) : Bytes :=
  encode pair.1 ++ 0x3d :: encode pair.2

/-- The bytes of a query string. -/
def encodePairs (pairs : List (String × String)) : Bytes :=
  [0x26].intercalate (pairs.map encodePair)

/-- The query string of pairs. -/
def write (pairs : List (String × String)) : String :=
  String.ofList ((encodePairs pairs).map fun byte => Char.ofNat byte.toNat)

/-! ## Reading -/

/-- The value of a hexadecimal digit. -/
def hexValue? (byte : UInt8) : Option UInt8 :=
  if 0x30 ≤ byte && byte ≤ 0x39 then some (byte - 0x30)
  else if 0x41 ≤ byte && byte ≤ 0x46 then some (byte - 0x41 + 10)
  else if 0x61 ≤ byte && byte ≤ 0x66 then some (byte - 0x61 + 10)
  else none

/-- The byte that two hexadecimal digits stand for. -/
def escaped? (first second : UInt8) : Option UInt8 :=
  match hexValue? first, hexValue? second with
  | some high, some low => some (high * 16 + low)
  | _, _ => none

/-- The bytes that a run of bytes with escapes stands for. -/
def decodeBytes : Bytes → Bytes
  | byte :: first :: second :: rest =>
      if byte = 0x25 then
        match escaped? first second with
        | some value => value :: decodeBytes rest
        | none => byte :: decodeBytes (first :: second :: rest)
      else if byte = 0x2b then 0x20 :: decodeBytes (first :: second :: rest)
      else byte :: decodeBytes (first :: second :: rest)
  | bytes => bytes.map fun byte => if byte = 0x2b then 0x20 else byte

/-- The name or value that a run of bytes stands for. -/
def decode (bytes : Bytes) : String := Utf8.decodeLossy (decodeBytes bytes)

/-- The bytes before the first separator, and those after it. -/
def splitFirst (separator : UInt8) (bytes : Bytes) : Bytes × Bytes :=
  (bytes.takeWhile (· != separator), (bytes.dropWhile (· != separator)).drop 1)

/-- The bytes between separators. -/
def splitAll (separator : UInt8) : Bytes → List Bytes
  | [] => [[]]
  | byte :: bytes =>
      match splitAll separator bytes with
      | [] => [[byte]]
      | part :: parts =>
          if byte = separator then [] :: part :: parts else (byte :: part) :: parts

/-- The pair that a part stands for. -/
def decodePair (part : Bytes) : String × String :=
  let (name, value) := splitFirst 0x3d part
  (decode name, decode value)

/-- The pairs of a query string. -/
def read (text : String) : List (String × String) :=
  ((splitAll 0x26 (Utf8.encode text)).filter (!·.isEmpty)).map decodePair

end RequestRouting.Http.Urlencoded
