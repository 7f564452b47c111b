/-
Durations, and the short text for one.

A duration is a whole number of nanoseconds.  Its text takes the largest unit of which it
holds at least one, and gives the exact number of those: `5s`, `1.05s`, `100.1ms`, `999ns`.
-/
namespace StubResolver

/-- A span of time. -/
structure Duration where
  nanoseconds : Nat
deriving DecidableEq, Repr

namespace Duration

/-- How many nanoseconds make a second. -/
def perSecond : Nat := 1000000000

/-- The duration of some seconds and some nanoseconds. -/
def ofParts (seconds nanoseconds : Nat) : Duration :=
  ⟨seconds * perSecond + nanoseconds⟩

/-- The whole seconds of a duration. -/
def seconds (duration : Duration) : Nat :=
  duration.nanoseconds / perSecond

/-- The nanoseconds beyond the whole seconds. -/
def subsecond (duration : Duration) : Nat :=
  duration.nanoseconds % perSecond

/-- The last `places` decimal digits of a number, leading zeros included. -/
def digits : Nat → Nat → List Char
  | 0, _ => []
  | places + 1, n => digits places (n / 10) ++ [Char.ofNat (48 + n % 10)]

/-- The number `n / 10 ^ places` in decimal notation, with as few places as it takes. -/
def decimalText (places n : Nat) : String :=
  let fraction := ((digits places n).reverse.dropWhile (· = '0')).reverse
  let point := if fraction.isEmpty then "" else "."
  s!"{n / Nat.pow 10 places}" ++ point ++ String.ofList fraction

/-- The text of a duration. -/
def text (duration : Duration) : String :=
  let n := duration.nanoseconds
  if perSecond ≤ n then decimalText 9 n ++ "s"
  else if 1000000 ≤ n then decimalText 6 n ++ "ms"
  else if 1000 ≤ n then decimalText 3 n ++ "µs"
  else decimalText 0 n ++ "ns"

end Duration

end StubResolver
