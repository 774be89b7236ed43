import PostStore.Calendar.Instant
import PostStore.Text.Numeral
/-!
# Writing instants

The RFC 3339 form of an instant in UTC: date, `T`, time of day, the shortest of no, three, six or
nine fraction digits that loses nothing, and `Z`.  A leap second is written as second sixty, and a
year outside 0 to 9999 has a sign and at least four digits.
-/

namespace PostStore.Rfc3339

open Text

/-! ## Parts -/

/-- The digits of a year. -/
def writeYear (year : Int) : List Char :=
  if 0 ≤ year ∧ year ≤ 9999 then fixedDigits 4 year.toNat
  else
    let size := year.natAbs
    let count := if size < 10000 then 4 else if size < 100000 then 5 else 6
    (if year < 0 then '-' else '+') :: fixedDigits count size

/-- The digits of a date. -/
def writeDate (date : Date) : List Char :=
  writeYear date.year ++ '-' :: fixedDigits 2 date.month ++ '-' :: fixedDigits 2 date.day

/-- The digits of a time of day, given the seconds since midnight and whether a leap second runs. -/
def writeTime (second : Nat) (leap : Bool) : List Char :=
  fixedDigits 2 (second / 3600) ++ ':' :: fixedDigits 2 (second / 60 % 60) ++
    ':' :: fixedDigits 2 (second % 60 + if leap then 1 else 0)

/-- The shortest fraction that loses none of the nanoseconds. -/
def writeFraction (nanos : Nat) : List Char :=
  if nanos = 0 then []
  else if nanos % 1000000 = 0 then '.' :: fixedDigits 3 (nanos / 1000000)
  else if nanos % 1000 = 0 then '.' :: fixedDigits 6 (nanos / 1000)
  else '.' :: fixedDigits 9 nanos

/-! ## Instants -/

/-- The characters of an instant. -/
def write (t : Instant) : List Char :=
  let leap := decide (1000000000 ≤ t.nanos)
  writeDate t.date ++ 'T' :: writeTime t.secondOfDay leap ++
    writeFraction (if leap then t.nanos - 1000000000 else t.nanos) ++ ['Z']

end PostStore.Rfc3339

namespace PostStore

/-- The RFC 3339 form of an instant. -/
def Instant.toText (t : Instant) : String := String.ofList (Rfc3339.write t)

end PostStore
