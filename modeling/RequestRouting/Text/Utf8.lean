/-!
# UTF-8

Texts as bytes and back. A reader takes one byte at a time and holds on to a
character that has begun; the bytes of a character that cannot be completed count as
one mistake, as far as they could have been the start of a character. `decode?`
refuses every mistake, `decodeLossy` puts the replacement character in its place.
-/

namespace RequestRouting

/-- A sequence of bytes. -/
abbrev Bytes := List UInt8

namespace Utf8

/-- The bytes of a text. -/
def encode (text : String) : Bytes := text.toList.flatMap String.utf8EncodeChar

/-- A character that has begun. -/
structure Begun where
  /-- The bits read so far. -/
  bits : Nat
  /-- The number of bytes still to come after the next one. -/
  later : Nat
  /-- The least value of the next byte. -/
  low : Nat
  /-- The greatest value of the next byte. -/
  high : Nat
  deriving DecidableEq, Repr

/-- The character of more than one byte that a byte begins. The range of the second
byte leaves out what has a shorter form, the surrogates, and what is out of range. -/
def begin? (byte : Nat) : Option Begun :=
  if byte < 0xc2 then none
  else if byte < 0xe0 then some ⟨byte - 0xc0, 0, 0x80, 0xbf⟩
  else if byte = 0xe0 then some ⟨0, 1, 0xa0, 0xbf⟩
  else if byte = 0xed then some ⟨0xd, 1, 0x80, 0x9f⟩
  else if byte < 0xf0 then some ⟨byte - 0xe0, 1, 0x80, 0xbf⟩
  else if byte = 0xf0 then some ⟨0, 2, 0x90, 0xbf⟩
  else if byte < 0xf4 then some ⟨byte - 0xf0, 2, 0x80, 0xbf⟩
  else if byte = 0xf4 then some ⟨4, 2, 0x80, 0x8f⟩
  else none

/-- Reads the first byte of a character: what it completes, and what it begins. A
mistake shows as `none`. -/
def start (byte : UInt8) : List (Option Char) × Option Begun :=
  if byte < 0x80 then ([some (Char.ofNat byte.toNat)], none)
  else
    match begin? byte.toNat with
    | some begun => ([], some begun)
    | none => ([none], none)

/-- Reads one byte. -/
def step (begun : Option Begun) (byte : UInt8) : List (Option Char) × Option Begun :=
  match begun with
  | none => start byte
  | some ⟨bits, later, low, high⟩ =>
      if low ≤ byte.toNat ∧ byte.toNat ≤ high then
        let bits := bits * 64 + (byte.toNat - 0x80)
        match later with
        | 0 => ([some (Char.ofNat bits)], none)
        | later + 1 => ([], some ⟨bits, later, 0x80, 0xbf⟩)
      else
        let (read, begun) := start byte
        (none :: read, begun)

/-- The characters and mistakes in a sequence of bytes after a character that has
begun. -/
def readFrom : Option Begun → Bytes → List (Option Char)
  | none, [] => []
  | some _, [] => [none]
  | begun, byte :: bytes =>
      let (read, begun) := step begun byte
      read ++ readFrom begun bytes

/-- The characters and mistakes in a sequence of bytes. -/
def read (bytes : Bytes) : List (Option Char) := readFrom none bytes

/-- The text of bytes that are valid UTF-8. -/
def decode? (bytes : Bytes) : Option String :=
  ((read bytes).mapM id).map String.ofList

/-- The text of bytes, with `U+FFFD` for each mistake. -/
def decodeLossy (bytes : Bytes) : String :=
  String.ofList ((read bytes).map fun c => c.getD '\ufffd')

end Utf8

end RequestRouting
