import PostStore.Calendar.Instant
import PostStore.Text.Blank
/-!
# Reading instants

A relaxed reader of RFC 3339.  Blanks may stand before numbers, before the separators inside date
and time, and before the offset; numbers need no padding; the fraction may have any length, of which
nine digits count; second sixty is a leap second; and the offset may be `Z`, `UTC` or a sign, hours
and minutes with colons and blanks between them.
-/

namespace PostStore.Rfc3339

open Text

/-- Why a text is not an instant. -/
inductive ReadError where
  | invalid
  | tooShort
  | tooLong
  | outOfRange
  | impossible
  deriving DecidableEq, Repr

/-- The wording of a `ReadError`. -/
def ReadError.message : ReadError → String
  | .invalid => "input contains invalid characters"
  | .tooShort => "premature end of input"
  | .tooLong => "trailing input"
  | .outOfRange => "input is out of range"
  | .impossible => "no possible date and time matching input"

/-! ## Pieces -/

/-- The number that a run of digits stands for. -/
def digitsValue (digits : List Char) : Nat :=
  digits.foldl (fun value c => value * 10 + (c.toNat - 48)) 0

/-- Reads at least one and at most `width` digits. -/
def readNumber (width : Nat) (text : List Char) : Except ReadError (Nat × List Char) :=
  match text with
  | [] => .error .tooShort
  | c :: _ =>
    if c.isDigit then
      let digits := (text.take width).takeWhile Char.isDigit
      .ok (digitsValue digits, text.drop digits.length)
    else .error .invalid

/-- Reads one given character. -/
def readLiteral (expected : Char) (text : List Char) : Except ReadError (List Char) :=
  match text with
  | [] => .error .tooShort
  | c :: rest => if c = expected then .ok rest else .error .invalid

/-- Reads a number of at most two digits between two bounds, after blanks. -/
def readPart (low high : Nat) (text : List Char) : Except ReadError (Nat × List Char) := do
  let (value, rest) ← readNumber 2 (trimStart text)
  if low ≤ value ∧ value ≤ high then return (value, rest) else throw .outOfRange

/-- Reads a year: at most four digits, or a sign and any number of digits. -/
def readYear (text : List Char) : Except ReadError (Int × List Char) := do
  let (year, rest) ← match trimStart text with
    | '-' :: digits => do
      let (value, rest) ← readNumber digits.length digits
      pure (-(value : Int), rest)
    | '+' :: digits => do
      let (value, rest) ← readNumber digits.length digits
      pure ((value : Int), rest)
    | digits => do
      let (value, rest) ← readNumber 4 digits
      pure ((value : Int), rest)
  if -2147483648 ≤ year ∧ year ≤ 2147483647 then return (year, rest) else throw .outOfRange

/-- Reads a fraction of a second in nanoseconds, which may be left out. -/
def readFraction (text : List Char) : Except ReadError (Nat × List Char) := do
  match text with
  | '.' :: digits =>
    let (value, rest) ← readNumber 9 digits
    return (value * Nat.pow 10 (9 - (digits.length - rest.length)), rest.dropWhile Char.isDigit)
  | _ => return (0, text)

/-- The two characters that start a text; the text may be too short, but not in bytes. -/
def readPair (text : List Char) : Except ReadError (Char × Char × List Char) :=
  match text with
  | [] => .error .tooShort
  | [c] => if c.toNat < 128 then .error .tooShort else .error .invalid
  | a :: b :: rest => .ok (a, b, rest)

/-- Reads the hours and minutes of an offset, in seconds. -/
def readOffsetSize (text : List Char) : Except ReadError (Nat × List Char) := do
  let (a, b, rest) ← readPair text
  if !(a.isDigit && b.isDigit) then throw .invalid
  let (c, d, rest) ← readPair (rest.dropWhile fun c => c = ':' || isBlank c)
  if !(c.isDigit && d.isDigit) then throw .invalid
  if '6' ≤ c then throw .outOfRange
  return (digitsValue [a, b] * 3600 + digitsValue [c, d] * 60, rest)

/-- Reads `Z`, or a sign with the size of the offset. -/
def readSignedOffset (text : List Char) : Except ReadError (Int × List Char) := do
  match text with
  | [] => throw .tooShort
  | sign :: rest =>
    if sign = 'Z' || sign = 'z' then return (0, rest)
    else if sign = '+' then
      let (size, rest) ← readOffsetSize rest
      return (size, rest)
    else if sign = '-' || sign = '\u2212' then
      let (size, rest) ← readOffsetSize rest
      return (-(size : Int), rest)
    else throw .invalid

/-- Reads an offset from UTC, in seconds. -/
def readOffset (text : List Char) : Except ReadError (Int × List Char) :=
  match text with
  | u :: t :: c :: rest =>
    if (u = 'U' || u = 'u') && (t = 'T' || t = 't') && (c = 'C' || c = 'c') then .ok (0, rest)
    else readSignedOffset text
  | _ => readSignedOffset text

/-! ## Whole instants -/

/-- The parts of a date and time as they are written. -/
structure Parts where
  year : Int
  month : Nat
  day : Nat
  hour : Nat
  minute : Nat
  second : Nat
  nanos : Nat
  offset : Int

/-- Reads all parts and nothing else. -/
def readParts (text : List Char) : Except ReadError Parts := do
  let (year, text) ← readYear text
  let text ← readLiteral '-' (trimStart text)
  let (month, text) ← readPart 1 12 text
  let text ← readLiteral '-' (trimStart text)
  let (day, text) ← readPart 1 31 text
  let text ← match text with
    | [] => throw .tooShort
    | c :: rest => if c = 'T' || c = 't' || c = ' ' then pure rest else throw .invalid
  let (hour, text) ← readPart 0 23 text
  let text ← readLiteral ':' (trimStart text)
  let (minute, text) ← readPart 0 59 text
  let text ← readLiteral ':' (trimStart text)
  let (second, text) ← readPart 0 60 text
  let (nanos, text) ← readFraction text
  let (offset, text) ← readOffset (trimStart text)
  if (trimStart text).isEmpty then
    return ⟨year, month, day, hour, minute, second, nanos, offset⟩
  else throw .tooLong

/-- The instant that a date and time denote. -/
def Parts.toInstant (parts : Parts) : Except ReadError Instant :=
  let date : Date := ⟨parts.year, parts.month, parts.day⟩
  if ¬ (-262143 ≤ parts.year ∧ parts.year ≤ 262142 ∧ date.Valid) then .error .outOfRange
  else if 86400 ≤ parts.offset.natAbs then .error .outOfRange
  else
    let leap := parts.second = 60
    let second := if leap then 59 else parts.second
    let sinceMidnight : Nat := parts.hour * 3600 + parts.minute * 60 + second
    let nanos := if leap then parts.nanos + 1000000000 else parts.nanos
    match Instant.ofParts? (date.toDays * 86400 + sinceMidnight - parts.offset) nanos with
    | some t => .ok t
    | none => .error .impossible

/-- Reads an instant. -/
def read (text : List Char) : Except ReadError Instant := do
  (← readParts text).toInstant

end PostStore.Rfc3339

namespace PostStore

/-- The instant that a text denotes. -/
def Instant.ofText (text : String) : Except Rfc3339.ReadError Instant := Rfc3339.read text.toList

end PostStore
