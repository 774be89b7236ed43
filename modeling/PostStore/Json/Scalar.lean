import PostStore.Calendar.Rfc3339.Writer
import PostStore.Json.Lexer
/-!
# Reading and writing single values

Readers for text, for instants and for the absence of a value, which say what they expected when
something else is there; and the written forms of text and instants.
-/

namespace PostStore.Json

open Text

/-! ## Reading -/

/-- The refusal of a value that is there instead of the expected one. -/
def wrongType (expected : String) : Bytes → Fault
  | [] => faultAfter .expectedValue []
  | b :: rest =>
    let refuse (found : Found) (rest : Bytes) := faultAt (.wrongType found expected) rest
    let afterWord (found : Found) : Except Fault Bytes → Fault
      | .ok rest => refuse found rest
      | .error fault => fault
    let afterNumber : Except Fault (Number × Bytes) → Fault
      | .ok (number, rest) => refuse number.found rest
      | .error fault => fault
    if b = 34 then
      match readString rest with
      | .ok (text, rest) => refuse (.text text) rest
      | .error fault => fault
    else if b = 45 then afterNumber (readNumber true rest)
    else if isDigit b then afterNumber (readNumber false (b :: rest))
    else if b = 110 then afterWord .null (readWord [117, 108, 108] rest)
    else if b = 116 then afterWord (.boolean true) (readWord [114, 117, 101] rest)
    else if b = 102 then afterWord (.boolean false) (readWord [97, 108, 115, 101] rest)
    else if b = 91 then refuse .sequence (b :: rest)
    else if b = 123 then refuse .map (b :: rest)
    else faultAfter .expectedValue (b :: rest)

/-- Reads a string whose text is understood by `parse`. -/
def readQuoted (expected : String) (parse : String → Except Reason α) : Reader α := fun bytes =>
  match skipSpace bytes with
  | [] => .error (faultAfter .endInValue [])
  | b :: rest =>
    if b = 34 then
      match readString rest with
      | .error fault => .error fault
      | .ok (text, rest) =>
        match parse text with
        | .ok value => .ok (value, rest)
        | .error reason => .error (faultAt reason rest)
    else .error (wrongType expected (b :: rest))

/-- Reads a text. -/
def readText : Reader String := readQuoted "a string" .ok

/-- Reads an instant. -/
def readInstant : Reader Instant :=
  readQuoted "an RFC 3339 formatted date and time string" fun text =>
    match Instant.ofText text with
    | .ok t => .ok t
    | .error why => .error (.badInstant why)

/-- Reads the value that stands for nothing. -/
def readNull : Reader Unit := fun bytes =>
  match skipSpace bytes with
  | [] => .error (faultAfter .endInValue [])
  | b :: rest =>
    if b = 110 then
      match readWord [117, 108, 108] rest with
      | .error fault => .error fault
      | .ok rest => .ok ((), rest)
    else .error (wrongType "unit" (b :: rest))

/-- Reads a whole document: a value with nothing but white space after it. -/
def readDocument (read : Reader α) (document : Bytes) : Except Fault α :=
  match read document with
  | .error fault => .error fault
  | .ok (value, rest) =>
    match skipSpace rest with
    | [] => .ok value
    | b :: rest => .error (faultAfter .trailingCharacters (b :: rest))

/-! ## Writing -/

/-- The hexadecimal digit, as a byte, of a number below sixteen. -/
def hexByte (n : Nat) : UInt8 := if n < 10 then UInt8.ofNat (48 + n) else UInt8.ofNat (87 + n)

/-- The written form of a byte of text. -/
def writeByte (b : UInt8) : Bytes :=
  if b = 34 then [92, 34]
  else if b = 92 then [92, 92]
  else if b = 8 then [92, 98]
  else if b = 9 then [92, 116]
  else if b = 10 then [92, 110]
  else if b = 12 then [92, 102]
  else if b = 13 then [92, 114]
  else if b < 32 then [92, 117, 48, 48, hexByte (b.toNat / 16), hexByte (b.toNat % 16)]
  else [b]

/-- The written form of text whose UTF-8 form is given. -/
def writeBytes (bytes : Bytes) : Bytes := 34 :: (bytes.flatMap writeByte ++ [34])

/-- The written form of a text. -/
def writeText (text : String) : Bytes := writeBytes (utf8 text)

/-- The written form of an instant. -/
def writeInstant (t : Instant) : Bytes := writeText t.toText

end PostStore.Json
