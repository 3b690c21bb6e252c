/-!
# Durations

A span of time in whole nanoseconds, and its text: a number of seconds, milliseconds, microseconds
or nanoseconds, whichever is the greatest unit that fits at least once.
-/

namespace Quoteboard.Transport

/-- A span of time. -/
structure Duration where
  nanoseconds : Nat
  deriving DecidableEq, Repr

namespace Duration

/-- A span of whole seconds and nanoseconds. -/
def ofSeconds (seconds nanoseconds : Nat) : Duration :=
  ⟨seconds * 1000000000 + nanoseconds⟩

/-- The most whole seconds of a span that can be waited for. -/
def maxSeconds : Nat := 0xffffffffffffffff

/-- A span of whole seconds and nanoseconds, unless it has more than `maxSeconds`. -/
def ofSeconds? (seconds nanoseconds : Nat) : Option Duration :=
  if maxSeconds < seconds + nanoseconds / 1000000000 then none
  else some (ofSeconds seconds nanoseconds)

/-- A span of whole milliseconds. -/
def ofMillis (millis : Nat) : Duration :=
  ⟨millis * 1000000⟩

/-- The whole milliseconds of a span. -/
def millis (d : Duration) : Nat :=
  d.nanoseconds / 1000000

/-- The digits of a fraction below one over `10 ^ places`, without zeros at the end. -/
def fractionDigits (places fraction : Nat) : List Char :=
  let digits := Nat.toDigits 10 fraction
  let padded := List.replicate (places - digits.length) '0' ++ digits
  (padded.reverse.dropWhile (· = '0')).reverse

/-- A span in units of `10 ^ places` nanoseconds. -/
def inUnits (d : Duration) (places : Nat) (unit : String) : String :=
  let whole := d.nanoseconds / Nat.pow 10 places
  let fraction := d.nanoseconds % Nat.pow 10 places
  let tail := if fraction = 0 then "" else "." ++ String.ofList (fractionDigits places fraction)
  toString whole ++ tail ++ unit

/-- The text of a span. -/
def text (d : Duration) : String :=
  if 1000000000 ≤ d.nanoseconds then d.inUnits 9 "s"
  else if 1000000 ≤ d.nanoseconds then d.inUnits 6 "ms"
  else if 1000 ≤ d.nanoseconds then d.inUnits 3 "µs"
  else d.inUnits 0 "ns"

end Duration

end Quoteboard.Transport
