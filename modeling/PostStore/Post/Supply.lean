import PostStore.Post.Basic
import PostStore.Text.Bytes
/-!
# A supply of identifiers

Identifiers are 32 hexadecimal digits: the milliseconds since 1970, a version and a variant mark,
and a count that rises within the millisecond, so that later identifiers sort after earlier ones.
What is handed out one after the other is a supply.
-/

namespace PostStore

/-! ## Identifiers -/

/-- The last `count` hexadecimal digits of a number, most significant first. -/
def fixedHexDigits : (count : Nat) → Nat → List Char
  | 0, _ => []
  | count + 1, n => fixedHexDigits count (n / 16) ++ [Text.hexDigit (n % 16)]

/-- The identifier made in a millisecond with a count. -/
def Post.makeId (millis count : Nat) : String :=
  String.ofList (fixedHexDigits 12 millis ++ '7' :: fixedHexDigits 3 (count / Nat.pow 2 62) ++
    fixedHexDigits 16 (Nat.pow 2 63 + count % Nat.pow 2 62))

/-- Milliseconds since 1970, none before. -/
def Instant.toMillis (t : Instant) : Nat := (t.toMicros / 1000).toNat

/-! ## Supplies -/

/-- Identifiers with clock readings in the order in which they are handed out, and how many have
been. -/
structure Supply where
  nth : Nat → Fresh
  count : Nat := 0

namespace Supply

/-- Hands out the next. -/
def take (supply : Supply) : Fresh × Supply :=
  (supply.nth supply.count, { supply with count := supply.count + 1 })

/-- Hands out the next ones, as many as told. -/
def takeMany : (count : Nat) → Supply → List Fresh
  | 0, _ => []
  | count + 1, supply => supply.take.1 :: takeMany count supply.take.2

/-- A supply whose clock starts at an instant and moves on by a microsecond each time. -/
def starting (start : ClockReading) : Supply where
  nth count :=
    let clock := (ClockReading.ofMicros? (start.toMicros + count)).getD start
    ⟨Post.makeId clock.toMillis count, clock⟩

end Supply

end PostStore
