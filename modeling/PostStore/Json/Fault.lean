import PostStore.Text.Quoted
import PostStore.Calendar.Rfc3339.Reader
/-!
# Why a JSON text is refused

A `Fault` is a reason together with the place where reading stopped, kept as the number of bytes
that were left.  Its wording names the line and the column, which counts bytes since the last line
feed.
-/

namespace PostStore.Json

/-- What a value turned out to be when something else was expected. -/
inductive Found where
  | null
  | boolean (value : Bool)
  | integer (value : Int)
  | float (written : String)
  | text (value : String)
  | sequence
  | map
  deriving DecidableEq, Repr

/-- The reasons for refusing a JSON text. -/
inductive Reason where
  | endInList
  | endInObject
  | endInString
  | endInValue
  | expectedColon
  | expectedListEnd
  | expectedObjectEnd
  | expectedIdentifier
  | expectedValue
  | invalidEscape
  | invalidNumber
  | numberOutOfRange
  | invalidCodePoint
  | controlCharacter
  | keyNotString
  | loneSurrogate
  | endInEscape
  | trailingComma
  | trailingCharacters
  | missingField (name : String)
  | duplicateField (name : String)
  | unknownVariant (name : String) (known : List String)
  | wrongLength (count : Nat) (expected : String)
  | wrongType (found : Found) (expected : String)
  | badInstant (why : Rfc3339.ReadError)
  deriving DecidableEq, Repr

/-- A refusal and the number of bytes left where it arose. -/
structure Fault where
  reason : Reason
  left : Nat
  deriving DecidableEq, Repr

/-! ## Wording -/

/-- The wording of what was found. -/
def Found.message : Found → String
  | .null => "null"
  | .boolean true => "boolean \x60true\x60"
  | .boolean false => "boolean \x60false\x60"
  | .integer value => "integer \x60" ++ toString value ++ "\x60"
  | .float written => "floating point \x60" ++ written ++ "\x60"
  | .text value => "string " ++ Text.quote value
  | .sequence => "sequence"
  | .map => "map"

/-- A name between marks. -/
def marked (name : String) : String := "\x60" ++ name ++ "\x60"

/-- The wording of a reason. -/
def Reason.message : Reason → String
  | .endInList => "EOF while parsing a list"
  | .endInObject => "EOF while parsing an object"
  | .endInString => "EOF while parsing a string"
  | .endInValue => "EOF while parsing a value"
  | .expectedColon => "expected \x60:\x60"
  | .expectedListEnd => "expected \x60,\x60 or \x60]\x60"
  | .expectedObjectEnd => "expected \x60,\x60 or \x60\x7d\x60"
  | .expectedIdentifier => "expected ident"
  | .expectedValue => "expected value"
  | .invalidEscape => "invalid escape"
  | .invalidNumber => "invalid number"
  | .numberOutOfRange => "number out of range"
  | .invalidCodePoint => "invalid unicode code point"
  | .controlCharacter => "control character (\\u0000-\\u001F) found while parsing a string"
  | .keyNotString => "key must be a string"
  | .loneSurrogate => "lone leading surrogate in hex escape"
  | .endInEscape => "unexpected end of hex escape"
  | .trailingComma => "trailing comma"
  | .trailingCharacters => "trailing characters"
  | .missingField name => "missing field " ++ marked name
  | .duplicateField name => "duplicate field " ++ marked name
  | .unknownVariant name known =>
    "unknown variant " ++ marked name ++ ", expected " ++
      String.intercalate " or " (known.map marked)
  | .wrongLength count expected => "invalid length " ++ toString count ++ ", expected " ++ expected
  | .wrongType found expected => "invalid type: " ++ found.message ++ ", expected " ++ expected
  | .badInstant why => why.message

/-- The line and column after some bytes. -/
def positionAfter (consumed : Bytes) : Nat × Nat :=
  (consumed.count 10 + 1, (consumed.reverse.takeWhile (· ≠ 10)).length)

/-- The wording of a refusal of `document`. -/
def Fault.message (fault : Fault) (document : Bytes) : String :=
  let (line, column) := positionAfter (document.take (document.length - fault.left))
  fault.reason.message ++ " at line " ++ toString line ++ " column " ++ toString column

/-- A refusal at the place where reading stands. -/
def faultAt (reason : Reason) (rest : Bytes) : Fault := ⟨reason, rest.length⟩

/-- A refusal just after the next byte, or at the end when there is none. -/
def faultAfter (reason : Reason) (rest : Bytes) : Fault := ⟨reason, rest.length - 1⟩

end PostStore.Json
