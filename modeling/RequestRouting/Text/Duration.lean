/-!
# Durations

A duration is a number of nanoseconds. Its text uses the largest unit that
leaves a whole part, followed by the exact fraction without trailing zeros:
`1.5ms`, `999.999999ms`, `61s`.
-/

namespace RequestRouting

/-- A span of time in nanoseconds. -/
structure Duration where
  nanoseconds : Nat
  deriving DecidableEq, Repr, Inhabited

namespace Duration

/-- A number of whole milliseconds. -/
def ofMilliseconds (count : Nat) : Duration := ⟨count * 1000000⟩

/-- A number of whole seconds. -/
def ofSeconds (count : Nat) : Duration := ⟨count * 1000000000⟩

/-- The whole milliseconds in a duration. -/
def milliseconds (d : Duration) : Nat := d.nanoseconds / 1000000

/-- The decimal digits of `part / 10 ^ places`, trailing zeros dropped; nothing
for a zero part. -/
def fractionDigits : Nat → Nat → List Char
  | 0, _ => []
  | places + 1, part =>
      if part = 0 then []
      else
        let unit := 10 ^ places
        Char.ofNat (part / unit + '0'.toNat) :: fractionDigits places (part % unit)

/-- A count of units of `10 ^ places` nanoseconds with its fraction. -/
def inUnits (nanoseconds places : Nat) (unit : String) : String :=
  let whole := toString (nanoseconds / Nat.pow 10 places)
  match fractionDigits places (nanoseconds % Nat.pow 10 places) with
  | [] => whole ++ unit
  | digits => whole ++ "." ++ String.ofList digits ++ unit

/-- The text of a duration in its largest fitting unit. -/
def text (d : Duration) : String :=
  if 1000000000 ≤ d.nanoseconds then inUnits d.nanoseconds 9 "s"
  else if 1000000 ≤ d.nanoseconds then inUnits d.nanoseconds 6 "ms"
  else if 1000 ≤ d.nanoseconds then inUnits d.nanoseconds 3 "µs"
  else inUnits d.nanoseconds 0 "ns"

end Duration

end RequestRouting
