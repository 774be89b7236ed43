import PostStore.Json.Fault
import PostStore.Text.Shortest
/-!
# The pieces of a JSON text

Blanks, words, strings and numbers.  A piece is read off the front of the bytes that are left.
Strings are read into the bytes they stand for, which are then taken for text; a string whose value
is of no interest is only passed over, by rules that ask less of it.
-/

namespace PostStore.Json

open Text

/-- A reader takes a value off the front of some bytes. -/
abbrev Reader (α : Type) := Bytes → Except Fault (α × Bytes)

/-! ## Blanks and words -/

/-- Whether a byte is white space. -/
def isSpace (b : UInt8) : Bool := b = 32 || b = 10 || b = 9 || b = 13

/-- Everything from the first byte that is not white space. -/
def skipSpace (bytes : Bytes) : Bytes := bytes.dropWhile isSpace

/-- White space is passed over, nothing is added. -/
theorem length_skipSpace_le (bytes : Bytes) : (skipSpace bytes).length ≤ bytes.length :=
  (List.dropWhile_sublist _).length_le

/-- Whether a byte is a decimal digit. -/
def isDigit (b : UInt8) : Bool := 48 ≤ b && b ≤ 57

/-- Reads the rest of a word that has started. -/
def readWord : (word : Bytes) → Bytes → Except Fault Bytes
  | [], bytes => .ok bytes
  | _ :: _, [] => .error (faultAt .endInValue [])
  | w :: word, b :: bytes =>
    if b = w then readWord word bytes else .error (faultAt .expectedIdentifier bytes)

/-- A word adds nothing to what is left. -/
theorem length_readWord_le {word bytes rest : Bytes} (h : readWord word bytes = .ok rest) :
    rest.length ≤ bytes.length := by
  induction word generalizing bytes with
  | nil => simp only [readWord, Except.ok.injEq] at h; simp [h]
  | cons w word ih =>
    cases bytes with
    | nil => simp [readWord] at h
    | cons b bytes =>
      rw [readWord] at h
      split at h
      · have := ih h; simp only [List.length_cons]; omega
      · simp at h

/-! ## Escapes in strings -/

/-- The value of a hexadecimal digit. -/
def hexDigitValue? (b : UInt8) : Option Nat :=
  if 48 ≤ b && b ≤ 57 then some (b.toNat - 48)
  else if 97 ≤ b && b ≤ 102 then some (b.toNat - 87)
  else if 65 ≤ b && b ≤ 70 then some (b.toNat - 55)
  else none

/-- Reads four hexadecimal digits. -/
def readHex4 (bytes : Bytes) : Except Fault (Nat × Bytes) :=
  match bytes with
  | a :: b :: c :: d :: rest =>
    match hexDigitValue? a, hexDigitValue? b, hexDigitValue? c, hexDigitValue? d with
    | some a, some b, some c, some d => .ok (((a * 16 + b) * 16 + c) * 16 + d, rest)
    | _, _, _, _ => .error (faultAt .invalidEscape rest)
  | _ => .error (faultAt .endInString [])

/-- Four digits are four bytes. -/
theorem length_readHex4 {bytes rest : Bytes} {n : Nat} (h : readHex4 bytes = .ok (n, rest)) :
    rest.length + 4 = bytes.length := by
  unfold readHex4 at h
  split at h
  · split at h
    · simp only [Except.ok.injEq, Prod.mk.injEq] at h; simp [h.2]
    · simp at h
  · simp at h

/-- Reads the second half of a surrogate pair that starts with `high`, giving the code point. -/
def readLowSurrogate (high : Nat) (bytes : Bytes) : Except Fault (Nat × Bytes) :=
  match bytes with
  | [] => .error (faultAt .endInString [])
  | b :: rest =>
    if b ≠ 92 then .error (faultAt .endInEscape rest)
    else match rest with
      | [] => .error (faultAt .endInString [])
      | u :: rest =>
        if u ≠ 117 then .error (faultAt .endInEscape rest)
        else match readHex4 rest with
          | .error fault => .error fault
          | .ok (low, rest) =>
            if 0xdc00 ≤ low ∧ low ≤ 0xdfff then
              .ok ((high - 0xd800) * 0x400 + (low - 0xdc00) + 0x10000, rest)
            else .error (faultAt .loneSurrogate rest)

/-- Reads the digits of a `u` escape, giving the code point. -/
def readCodePoint (bytes : Bytes) : Except Fault (Nat × Bytes) :=
  match readHex4 bytes with
  | .error fault => .error fault
  | .ok (n, rest) =>
    if 0xdc00 ≤ n ∧ n ≤ 0xdfff then .error (faultAt .loneSurrogate rest)
    else if 0xd800 ≤ n ∧ n ≤ 0xdbff then readLowSurrogate n rest
    else .ok (n, rest)

/-- The byte that a letter stands for after a backslash. -/
def escapedByte? (letter : UInt8) : Option UInt8 :=
  if letter = 34 ∨ letter = 92 ∨ letter = 47 then some letter
  else if letter = 98 then some 8
  else if letter = 102 then some 12
  else if letter = 110 then some 10
  else if letter = 114 then some 13
  else if letter = 116 then some 9
  else none

/-- Reads what follows a backslash, giving the bytes it stands for. -/
def readEscape (bytes : Bytes) : Except Fault (Bytes × Bytes) :=
  match bytes with
  | [] => .error (faultAt .endInString [])
  | letter :: rest =>
    if letter = 117 then
      match readCodePoint rest with
      | .error fault => .error fault
      | .ok (code, rest) => .ok (String.utf8EncodeChar (Char.ofNat code), rest)
    else
      match escapedByte? letter with
      | some b => .ok ([b], rest)
      | none => .error (faultAt .invalidEscape rest)

/-- Passes over what follows a backslash; the digits of a `u` escape may denote a lone surrogate. -/
def skipEscape (bytes : Bytes) : Except Fault Bytes :=
  match bytes with
  | [] => .error (faultAt .endInString [])
  | letter :: rest =>
    if letter = 117 then
      match readHex4 rest with
      | .error fault => .error fault
      | .ok (_, rest) => .ok rest
    else
      match escapedByte? letter with
      | some _ => .ok rest
      | none => .error (faultAt .invalidEscape rest)

/-- A surrogate takes bytes off. -/
theorem length_readLowSurrogate_lt {high n : Nat} {bytes rest : Bytes}
    (h : readLowSurrogate high bytes = .ok (n, rest)) : rest.length < bytes.length := by
  unfold readLowSurrogate at h
  split at h
  · simp at h
  · split at h
    · simp at h
    · split at h
      · simp at h
      · split at h
        · simp at h
        · split at h
          · simp at h
          · rename_i low rest' hex
            split at h
            · simp only [Except.ok.injEq, Prod.mk.injEq] at h
              have := length_readHex4 hex
              simp only [List.length_cons, ← h.2]; omega
            · simp at h

/-- A code point takes bytes off. -/
theorem length_readCodePoint_lt {n : Nat} {bytes rest : Bytes}
    (h : readCodePoint bytes = .ok (n, rest)) : rest.length < bytes.length := by
  unfold readCodePoint at h
  split at h
  · simp at h
  · rename_i hex
    have := length_readHex4 hex
    split at h
    · simp at h
    · split at h
      · have := length_readLowSurrogate_lt h; omega
      · simp only [Except.ok.injEq, Prod.mk.injEq] at h; rw [← h.2]; omega

/-- An escape takes bytes off. -/
theorem length_readEscape_lt {piece bytes rest : Bytes} (h : readEscape bytes = .ok (piece, rest)) :
    rest.length < bytes.length := by
  unfold readEscape at h
  split at h
  · simp at h
  · split at h
    · split at h
      · simp at h
      · rename_i code
        have := length_readCodePoint_lt code
        simp only [Except.ok.injEq, Prod.mk.injEq] at h
        simp only [List.length_cons, ← h.2]; omega
    · split at h
      · simp only [Except.ok.injEq, Prod.mk.injEq] at h; simp [h.2]
      · simp at h

/-- Passing over an escape takes bytes off. -/
theorem length_skipEscape_lt {bytes rest : Bytes} (h : skipEscape bytes = .ok rest) :
    rest.length < bytes.length := by
  unfold skipEscape at h
  split at h
  · simp at h
  · split at h
    · split at h
      · simp at h
      · rename_i hex
        have := length_readHex4 hex
        simp only [Except.ok.injEq] at h
        simp only [List.length_cons, ← h]; omega
    · split at h
      · simp only [Except.ok.injEq] at h; simp [h]
      · simp at h

/-! ## Strings -/

/-- Reads the rest of a string after its opening quote into the bytes it stands for; `done` holds
those already read, last first. -/
def readBytes (done : Bytes) (bytes : Bytes) : Except Fault (Bytes × Bytes) :=
  match bytes with
  | [] => .error (faultAt .endInString [])
  | b :: rest =>
    if b = 34 then .ok (done.reverse, rest)
    else if b = 92 then
      match h : readEscape rest with
      | .error fault => .error fault
      | .ok (piece, rest') =>
        have : rest'.length < rest.length := length_readEscape_lt h
        readBytes (piece.reverse ++ done) rest'
    else if b < 32 then .error (faultAt .controlCharacter rest)
    else readBytes (b :: done) rest
  termination_by bytes.length

/-- Reads the rest of a string after its opening quote as text.  Bytes that are no text are found
only when the whole string has been read, and their place is counted back from its end, over the
bytes that the string stands for. -/
def readString : Reader String := fun bytes =>
  match readBytes [] bytes with
  | .error fault => .error fault
  | .ok (content, rest) =>
    match ofUtf8? content with
    | some text => .ok (text, rest)
    | none => .error ⟨.invalidCodePoint, rest.length + (dropWellFormed content).length⟩

/-- Passes over the rest of a string after its opening quote. -/
def skipString (bytes : Bytes) : Except Fault Bytes :=
  match bytes with
  | [] => .error (faultAt .endInString [])
  | b :: rest =>
    if b = 34 then .ok rest
    else if b = 92 then
      match h : skipEscape rest with
      | .error fault => .error fault
      | .ok rest' =>
        have : rest'.length < rest.length := length_skipEscape_lt h
        skipString rest'
    else if b < 32 then .error (faultAt .controlCharacter (b :: rest))
    else skipString rest
  termination_by bytes.length

/-- Passing over a string takes bytes off. -/
theorem length_skipString_lt {bytes rest : Bytes} (h : skipString bytes = .ok rest) :
    rest.length < bytes.length := by
  fun_induction skipString bytes with
  | case1 => simp at h
  | case2 => simp only [Except.ok.injEq] at h; simp [h]
  | case3 => simp at h
  | case4 _ _ _ _ _ ih => have := ih h; simp only [List.length_cons]; omega
  | case5 => simp at h
  | case6 _ _ _ _ _ ih => have := ih h; simp only [List.length_cons]; omega

/-! ## Numbers -/

/-- A number, as a whole number of 64 bits or as a double. -/
inductive Number where
  | whole (value : Int)
  | double (value : Float)

/-- What is said to be found where a number stands. -/
def Number.found : Number → Found
  | .whole value => .integer value
  | .double value => .float (Shortest.text value.toBits.toNat)

/-- The largest whole number that is kept exactly. -/
def largestWhole : Nat := 18446744073709551615

/-- Multiplies by a power of ten in double arithmetic; nothing when the result is infinite. -/
def scaleDouble (value : Float) (exponent : Int) : (fuel : Nat) → Option Float
  | 0 => some value
  | fuel + 1 =>
    if exponent.natAbs ≤ 308 then
      let power := Float.ofScientific 1 false exponent.natAbs
      if 0 ≤ exponent then
        let scaled := value * power
        if scaled.isInf then none else some scaled
      else some (value / power)
    else if value == 0.0 then some value
    else if 0 ≤ exponent then none
    else scaleDouble (value / Float.ofScientific 1 false 308) (exponent + 308) fuel

/-- The number with a significand, a power of ten and a sign. -/
def makeDouble (negative : Bool) (significand : Nat) (exponent : Int) : Reader Number := fun rest =>
  match scaleDouble significand.toUInt64.toFloat exponent (exponent.natAbs / 308 + 1) with
  | some value => .ok (.double (if negative then -value else value), rest)
  | none => .error (faultAt .numberOutOfRange rest)

/-- Reads the digits of an exponent after the first; one that does not fit 32 bits is too large. -/
def readExponentDigits (negative : Bool) (significand : Nat) (down : Bool) (start : Int)
    (exponent : Nat) : Reader Number
  | b :: rest =>
    if isDigit b then
      let next := exponent * 10 + (b.toNat - 48)
      if next ≤ 2147483647 then readExponentDigits negative significand down start next rest
      else if significand ≠ 0 ∧ !down then .error (faultAt .numberOutOfRange rest)
      else .ok (.double (if negative then -0.0 else 0.0), rest.dropWhile isDigit)
    else makeDouble negative significand (if down then start - exponent else start + exponent)
      (b :: rest)
  | [] => makeDouble negative significand (if down then start - exponent else start + exponent) []

/-- Reads an exponent after its letter. -/
def readExponent (negative : Bool) (significand : Nat) (start : Int) : Reader Number := fun bytes =>
  let (down, bytes) := match bytes with
    | 43 :: rest => (false, rest)
    | 45 :: rest => (true, rest)
    | _ => (false, bytes)
  match bytes with
  | [] => .error (faultAt .endInValue [])
  | b :: rest =>
    if isDigit b then readExponentDigits negative significand down start (b.toNat - 48) rest
    else .error (faultAt .invalidNumber rest)

/-- Ends a number that has a point or many digits: an exponent may follow. -/
def endDouble (negative : Bool) (significand : Nat) (exponent : Int) : Reader Number
  | b :: rest =>
    if b = 101 ∨ b = 69 then readExponent negative significand exponent rest
    else makeDouble negative significand exponent (b :: rest)
  | [] => makeDouble negative significand exponent []

/-- Reads the digits after a point; digits that no longer fit the significand are dropped. -/
def readFraction (negative : Bool) (significand : Nat) (before : Int) (places : Nat) : Reader Number
  | b :: rest =>
    if isDigit b then
      let next := significand * 10 + (b.toNat - 48)
      if next ≤ largestWhole then readFraction negative next before (places + 1) rest
      else endDouble negative significand (before - places) (rest.dropWhile isDigit)
    else if places = 0 then .error (faultAfter .invalidNumber (b :: rest))
    else endDouble negative significand (before - places) (b :: rest)
  | [] =>
    if places = 0 then .error (faultAt .endInValue [])
    else endDouble negative significand (before - places) []

/-- Ends a number whose whole part has been read. -/
def endWhole (negative : Bool) (significand : Nat) : Reader Number := fun bytes =>
  match bytes with
  | 46 :: rest => readFraction negative significand 0 0 rest
  | 101 :: rest => readExponent negative significand 0 rest
  | 69 :: rest => readExponent negative significand 0 rest
  | _ =>
    if !negative then .ok (.whole significand, bytes)
    else if significand = 0 ∨ 9223372036854775808 < significand then
      .ok (.double (-significand.toUInt64.toFloat), bytes)
    else .ok (.whole (-significand), bytes)

/-- Ends a number whose whole part has more digits than fit; `extra` of them have been passed. -/
def endLong (negative : Bool) (significand : Nat) (bytes : Bytes) :
    Except Fault (Number × Bytes) :=
  let extra := (bytes.takeWhile isDigit).length
  match bytes.dropWhile isDigit with
  | 46 :: rest => readFraction negative significand extra 0 rest
  | rest => endDouble negative significand extra rest

/-- Reads the digits of a whole part after the first. -/
def readWhole (negative : Bool) (significand : Nat) : Reader Number
  | b :: rest =>
    if isDigit b then
      let next := significand * 10 + (b.toNat - 48)
      if next ≤ largestWhole then readWhole negative next rest
      else endLong negative significand (b :: rest)
    else endWhole negative significand (b :: rest)
  | [] => endWhole negative significand []

/-- Reads a number after its sign. -/
def readNumber (negative : Bool) : Reader Number
  | [] => .error (faultAt .endInValue [])
  | b :: rest =>
    if b = 48 then
      match rest with
      | d :: _ =>
        if isDigit d then .error (faultAfter .invalidNumber rest) else endWhole negative 0 rest
      | [] => endWhole negative 0 []
    else if isDigit b then readWhole negative (b.toNat - 48) rest
    else .error (faultAt .invalidNumber rest)

/-! ## Passing over numbers -/

/-- What follows a sign, if there is one. -/
def dropSign : Bytes → Bytes
  | 43 :: rest => rest
  | 45 :: rest => rest
  | bytes => bytes

/-- Passes over an exponent after its letter. -/
def skipExponent (bytes : Bytes) : Except Fault Bytes :=
  match dropSign bytes with
  | [] => .error (faultAt .invalidNumber [])
  | b :: rest =>
    if isDigit b then .ok (rest.dropWhile isDigit) else .error (faultAt .invalidNumber rest)

/-- Passes over an exponent, if there is one. -/
def skipAnyExponent : Bytes → Except Fault Bytes
  | [] => .ok []
  | b :: rest => if b = 101 ∨ b = 69 then skipExponent rest else .ok (b :: rest)

/-- Passes over what may follow the whole part of a number. -/
def skipFraction : Bytes → Except Fault Bytes
  | [] => .ok []
  | b :: rest =>
    if b = 46 then
      match rest with
      | [] => .error (faultAt .invalidNumber [])
      | d :: digits =>
        if isDigit d then skipAnyExponent (digits.dropWhile isDigit)
        else .error (faultAfter .invalidNumber (d :: digits))
    else skipAnyExponent (b :: rest)

/-- Passes over a number after its sign. -/
def skipNumber : Bytes → Except Fault Bytes
  | [] => .error (faultAt .invalidNumber [])
  | b :: rest =>
    if b = 48 then
      match rest with
      | d :: _ => if isDigit d then .error (faultAfter .invalidNumber rest) else skipFraction rest
      | [] => .ok []
    else if isDigit b then skipFraction (rest.dropWhile isDigit)
    else .error (faultAt .invalidNumber rest)

/-- Dropping digits adds nothing. -/
theorem length_dropDigits_le (bytes : Bytes) : (bytes.dropWhile isDigit).length ≤ bytes.length :=
  (List.dropWhile_sublist _).length_le

/-- Dropping a sign adds nothing. -/
theorem length_dropSign_le (bytes : Bytes) : (dropSign bytes).length ≤ bytes.length := by
  unfold dropSign
  split <;> simp

/-- Passing over an exponent adds nothing. -/
theorem length_skipExponent_le {bytes rest : Bytes} (h : skipExponent bytes = .ok rest) :
    rest.length ≤ bytes.length := by
  have unsigned := length_dropSign_le bytes
  unfold skipExponent at h
  split at h
  · simp at h
  · rename_i b tail eq
    split at h
    · simp only [Except.ok.injEq] at h
      have := length_dropDigits_le tail
      rw [eq, List.length_cons] at unsigned
      rw [← h]
      omega
    · simp at h

/-- Passing over an exponent that may be missing adds nothing. -/
theorem length_skipAnyExponent_le {bytes rest : Bytes} (h : skipAnyExponent bytes = .ok rest) :
    rest.length ≤ bytes.length := by
  unfold skipAnyExponent at h
  split at h
  · simp only [Except.ok.injEq] at h; simp [← h]
  · split at h
    · have := length_skipExponent_le h; simp only [List.length_cons]; omega
    · simp only [Except.ok.injEq] at h; simp [← h]

/-- Passing over a fraction adds nothing. -/
theorem length_skipFraction_le {bytes rest : Bytes} (h : skipFraction bytes = .ok rest) :
    rest.length ≤ bytes.length := by
  unfold skipFraction at h
  split at h
  · simp only [Except.ok.injEq] at h; simp [← h]
  · split at h
    · split at h
      · simp at h
      · rename_i digits
        split at h
        · have := length_skipAnyExponent_le h
          have := length_dropDigits_le digits
          simp only [List.length_cons]; omega
        · simp at h
    · exact length_skipAnyExponent_le h

/-- Passing over a number takes bytes off. -/
theorem length_skipNumber_lt {bytes rest : Bytes} (h : skipNumber bytes = .ok rest) :
    rest.length < bytes.length := by
  unfold skipNumber at h
  split at h
  · simp at h
  · rename_i b tail
    split at h
    · split at h
      · split at h
        · simp at h
        · have := length_skipFraction_le h; simp only [List.length_cons] at this ⊢; omega
      · simp only [Except.ok.injEq] at h; simp [← h]
    · split at h
      · have := length_skipFraction_le h
        have := length_dropDigits_le tail
        simp only [List.length_cons]; omega
      · simp at h

end PostStore.Json
