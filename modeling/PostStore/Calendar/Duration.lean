/-!
# Durations

A length of time in nanoseconds, at most that of 2 ^ 64 seconds less a nanosecond; arithmetic stops
at that bound.  The shown form uses the largest of the units second, millisecond, microsecond and
nanosecond that leaves a whole part.
-/

namespace PostStore

/-- A length of time. -/
structure Duration where
  nanos : Nat
  bounded : nanos ≤ 18446744073709551615999999999
  deriving DecidableEq

namespace Duration

/-- The longest duration in nanoseconds. -/
def longest : Nat := 18446744073709551615999999999

/-- The duration of so many nanoseconds, or the longest. -/
def ofNanos (nanos : Nat) : Duration := ⟨min nanos longest, Nat.min_le_right _ _⟩

/-- The duration of so many seconds, or the longest. -/
def ofSeconds (seconds : Nat) : Duration := ofNanos (seconds * 1000000000)

/-- The duration of so many milliseconds, or the longest. -/
def ofMillis (millis : Nat) : Duration := ofNanos (millis * 1000000)

/-- So many times a duration, or the longest. -/
def scale (d : Duration) (factor : Nat) : Duration := ofNanos (d.nanos * factor)

/-- The shorter of two durations. -/
def shorter (a b : Duration) : Duration := if a.nanos ≤ b.nanos then a else b

/-- Whole seconds. -/
def wholeSeconds (d : Duration) : Nat := d.nanos / 1000000000

instance : Inhabited Duration := ⟨ofNanos 0⟩

/-! ## Shown form -/

/-- The digits of a fraction with the given count of places, without zeros at the end. -/
def fractionDigits (places fraction : Nat) : List Char :=
  let digits := (toString fraction).toList
  let padded := List.replicate (places - digits.length) '0' ++ digits
  (padded.reverse.dropWhile (· = '0')).reverse

/-- A whole part and a fraction of a unit. -/
def showIn (unit : String) (size places : Nat) (nanos : Nat) : String :=
  let fraction := fractionDigits places (nanos % size)
  let point := if fraction.isEmpty then "" else "."
  toString (nanos / size) ++ point ++ String.ofList fraction ++ unit

/-- The shown form. -/
def text (d : Duration) : String :=
  if 1000000000 ≤ d.nanos then showIn "s" 1000000000 9 d.nanos
  else if 1000000 ≤ d.nanos then showIn "ms" 1000000 6 d.nanos
  else if 1000 ≤ d.nanos then showIn "µs" 1000 3 d.nanos
  else showIn "ns" 1 0 d.nanos

end Duration

end PostStore
