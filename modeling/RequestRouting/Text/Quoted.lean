import RequestRouting.Text.CharClass

/-!
# Quoted text

The form in which diagnostics show a text: between double quotes, with a
backslash before a quote or a backslash, short escapes for the common controls,
and the code point in braces for whatever would not be visible on its own.
-/

namespace RequestRouting.Text

/-- The hexadecimal digit of a number below sixteen, lower case. -/
def hexDigit (value : Nat) : Char :=
  if value < 10 then Char.ofNat (value + '0'.toNat)
  else Char.ofNat (value - 10 + 'a'.toNat)

/-- Hexadecimal digits of a number, most significant first, none for zero. -/
def hexDigits (value : Nat) : List Char :=
  if value = 0 then [] else hexDigits (value / 16) ++ [hexDigit (value % 16)]

/-- A number in lower-case hexadecimal without leading zeros. -/
def hexText (value : Nat) : String :=
  if value = 0 then "0" else String.ofList (hexDigits value)

/-- How quoted text writes one character. -/
def quotedChar (c : Char) : String :=
  match c with
  | '\x00' => "\\0"
  | '\t' => "\\t"
  | '\n' => "\\n"
  | '\r' => "\\r"
  | '\\' => "\\\\"
  | '\x22' => "\\\""
  | _ =>
      if isPrintable c && !isExtender c then c.toString
      else "\\u\x7b" ++ hexText c.toNat ++ "\x7d"

/-- A text between double quotes with everything invisible escaped. -/
def quoted (text : String) : String :=
  "\"" ++ text.foldl (fun out c => out ++ quotedChar c) "" ++ "\""

/-- Braces around entries that are separated by commas; no entries, no blanks. -/
def braced (entries : List String) : String :=
  "\x7b" ++ ", ".intercalate entries ++ "\x7d"

/-- A record shown as its name and its labelled fields. -/
def recordText (name : String) (fields : List (String × String)) : String :=
  name ++ " \x7b " ++
    ", ".intercalate (fields.map fun (label, value) => label ++ ": " ++ value) ++ " \x7d"

/-- A list shown in brackets. -/
def listText (entries : List String) : String :=
  "[" ++ ", ".intercalate entries ++ "]"

end RequestRouting.Text
