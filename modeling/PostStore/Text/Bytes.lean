/-!
# Bytes and the text they spell

Documents, keys and wire values are lists of bytes.  This file relates them to text: the UTF-8 form
of a text, reading it back (strictly, or with a replacement mark for every broken piece) and
hexadecimal notation.
-/

namespace PostStore

/-- A finite run of bytes. -/
abbrev Bytes := List UInt8

namespace Text

/-! ## UTF-8 -/

/-- The UTF-8 form of a text. -/
def utf8 (text : String) : Bytes := text.toByteArray.data.toList

/-- The text whose UTF-8 form is given; nothing when the bytes are not well-formed UTF-8. -/
def ofUtf8? (bytes : Bytes) : Option String := String.fromUTF8? ⟨bytes.toArray⟩

/-- Reading back the UTF-8 form of a text gives the text. -/
theorem ofUtf8?_utf8 (text : String) : ofUtf8? (utf8 text) = some text := by
  have same : (⟨text.toByteArray.data.toList.toArray⟩ : ByteArray) = text.toByteArray := by
    rw [Array.toArray_toList]
  unfold ofUtf8? utf8 String.fromUTF8?
  rw [same, dif_pos text.isValidUTF8]
  rfl

/-- The mark that stands for bytes that are not text. -/
def replacement : Char := '\ufffd'

/-- Whether a byte can follow the first byte of a longer character. -/
def isContinuation (b : UInt8) : Bool := 0x80 ≤ b && b ≤ 0xbf

/-- Whether `b` can be the second byte of a three-byte character that starts with `lead`. -/
def followsThree (lead b : UInt8) : Bool :=
  if lead = 0xe0 then 0xa0 ≤ b && b ≤ 0xbf
  else if lead = 0xed then 0x80 ≤ b && b ≤ 0x9f
  else isContinuation b

/-- Whether `b` can be the second byte of a four-byte character that starts with `lead`. -/
def followsFour (lead b : UInt8) : Bool :=
  if lead = 0xf0 then 0x90 ≤ b && b ≤ 0xbf
  else if lead = 0xf4 then 0x80 ≤ b && b ≤ 0x8f
  else isContinuation b

/-- The character whose code is `head` followed by the low six bits of each of `tail`. -/
def assemble (head : Nat) (tail : List UInt8) : Char :=
  Char.ofNat (tail.foldl (fun code b => code * 64 + b.toNat % 64) head)

/-- Reads UTF-8, putting `replacement` for every longest piece that starts a character but does not
finish it, and for every byte that cannot start one. -/
def lossyFrom (done : List Char) : Bytes → List Char
  | [] => done.reverse
  | lead :: rest =>
    if lead < 0x80 then lossyFrom (Char.ofNat lead.toNat :: done) rest
    else if 0xc2 ≤ lead && lead ≤ 0xdf then
      match rest with
      | b :: rest' =>
        if isContinuation b then lossyFrom (assemble (lead.toNat % 32) [b] :: done) rest'
        else lossyFrom (replacement :: done) (b :: rest')
      | [] => lossyFrom (replacement :: done) []
    else if 0xe0 ≤ lead && lead ≤ 0xef then
      match rest with
      | b :: c :: rest' =>
        if followsThree lead b then
          if isContinuation c then lossyFrom (assemble (lead.toNat % 16) [b, c] :: done) rest'
          else lossyFrom (replacement :: done) (c :: rest')
        else lossyFrom (replacement :: done) (b :: c :: rest')
      | [b] =>
        if followsThree lead b then lossyFrom (replacement :: done) []
        else lossyFrom (replacement :: done) [b]
      | [] => lossyFrom (replacement :: done) []
    else if 0xf0 ≤ lead && lead ≤ 0xf4 then
      match rest with
      | b :: c :: d :: rest' =>
        if followsFour lead b then
          if isContinuation c then
            if isContinuation d then lossyFrom (assemble (lead.toNat % 8) [b, c, d] :: done) rest'
            else lossyFrom (replacement :: done) (d :: rest')
          else lossyFrom (replacement :: done) (c :: d :: rest')
        else lossyFrom (replacement :: done) (b :: c :: d :: rest')
      | [b, c] =>
        if followsFour lead b then
          if isContinuation c then lossyFrom (replacement :: done) []
          else lossyFrom (replacement :: done) [c]
        else lossyFrom (replacement :: done) [b, c]
      | [b] =>
        if followsFour lead b then lossyFrom (replacement :: done) []
        else lossyFrom (replacement :: done) [b]
      | [] => lossyFrom (replacement :: done) []
    else lossyFrom (replacement :: done) rest
  termination_by bytes => bytes.length

/-- How many bytes the character at the front has; zero when no well-formed character starts
there. -/
def charLength (lead : UInt8) (rest : Bytes) : Nat :=
  if lead < 0x80 then 1
  else if 0xc2 ≤ lead && lead ≤ 0xdf then
    match rest with
    | b :: _ => if isContinuation b then 2 else 0
    | _ => 0
  else if 0xe0 ≤ lead && lead ≤ 0xef then
    match rest with
    | b :: c :: _ => if followsThree lead b && isContinuation c then 3 else 0
    | _ => 0
  else if 0xf0 ≤ lead && lead ≤ 0xf4 then
    match rest with
    | b :: c :: d :: _ =>
      if followsFour lead b && isContinuation c && isContinuation d then 4 else 0
    | _ => 0
  else 0

/-- Everything from the first byte that is not part of a well-formed character. -/
def dropWellFormed : Bytes → Bytes
  | [] => []
  | lead :: rest =>
    match charLength lead rest with
    | 0 => lead :: rest
    | n + 1 => dropWellFormed (rest.drop n)
  termination_by bytes => bytes.length
  decreasing_by simp only [List.length_drop, List.length_cons]; omega

/-- The text that bytes are shown as when they need not be well-formed UTF-8. -/
def ofUtf8Lossy (bytes : Bytes) : String :=
  match ofUtf8? bytes with
  | some text => text
  | none => String.ofList (lossyFrom [] bytes)

/-! ## Hexadecimal -/

/-- The lower-case hexadecimal digit of a number below sixteen. -/
def hexDigit (n : Nat) : Char := Char.ofNat (if n < 10 then 48 + n else 87 + n)

/-- The value of a hexadecimal digit of either case. -/
def hexValue? (c : Char) : Option Nat :=
  if '0' ≤ c && c ≤ '9' then some (c.toNat - 48)
  else if 'a' ≤ c && c ≤ 'f' then some (c.toNat - 87)
  else if 'A' ≤ c && c ≤ 'F' then some (c.toNat - 55)
  else none

/-- Two lower-case hexadecimal digits for every byte. -/
def toHex (bytes : Bytes) : String :=
  String.ofList (bytes.flatMap fun b => [hexDigit (b.toNat / 16), hexDigit (b.toNat % 16)])

/-- The bytes that pairs of hexadecimal digits stand for. -/
def bytesOfDigits? (done : Bytes) : List Char → Option Bytes
  | [] => some done.reverse
  | [_] => none
  | high :: low :: rest =>
    match hexValue? high, hexValue? low with
    | some h, some l => bytesOfDigits? (UInt8.ofNat (16 * h + l) :: done) rest
    | _, _ => none

/-- The bytes that a hexadecimal text stands for. -/
def ofHex? (text : String) : Option Bytes := bytesOfDigits? [] text.toList

end Text

end PostStore
