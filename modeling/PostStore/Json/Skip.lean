import PostStore.Json.Lexer
/-!
# Passing over a value

A value of no interest is passed over without keeping any of it.  The brackets that are open are
kept on a stack, so nesting may be as deep as the text allows.
-/

namespace PostStore.Json

/-! ## Punctuation -/

/-- Passes over the colon after the name of a member. -/
def skipColon (bytes : Bytes) : Except Fault Bytes :=
  match skipSpace bytes with
  | [] => .error (faultAfter .endInObject [])
  | b :: rest => if b = 58 then .ok rest else .error (faultAfter .expectedColon (b :: rest))

/-- A colon takes bytes off. -/
theorem length_skipColon_lt {bytes rest : Bytes} (h : skipColon bytes = .ok rest) :
    rest.length < bytes.length := by
  have spaces := length_skipSpace_le bytes
  unfold skipColon at h
  split at h
  · simp at h
  · rename_i b tail eq
    rw [eq, List.length_cons] at spaces
    split at h
    · simp only [Except.ok.injEq] at h; rw [← h]; omega
    · simp at h

/-- Passes over the name of a member and the colon after it. -/
def skipName (bytes : Bytes) : Except Fault Bytes :=
  match skipSpace bytes with
  | [] => .error (faultAfter .endInObject [])
  | b :: rest =>
    if b = 34 then
      match skipString rest with
      | .error fault => .error fault
      | .ok rest => skipColon rest
    else .error (faultAfter .keyNotString (b :: rest))

/-- A name takes bytes off. -/
theorem length_skipName_lt {bytes rest : Bytes} (h : skipName bytes = .ok rest) :
    rest.length < bytes.length := by
  have spaces := length_skipSpace_le bytes
  unfold skipName at h
  split at h
  · simp at h
  · rename_i b tail eq
    rw [eq, List.length_cons] at spaces
    split at h
    · split at h
      · simp at h
      · rename_i string
        have := length_skipString_lt string
        have := length_skipColon_lt h
        omega
    · simp at h

/-! ## Open brackets -/

/-- What is open around a value. -/
inductive Frame where
  | list
  | object
  deriving DecidableEq, Repr

/-- The byte that closes a frame. -/
def Frame.closer : Frame → UInt8
  | .list => 93
  | .object => 125

/-- The reason for refusing an end of the text inside a frame. -/
def Frame.endReason : Frame → Reason
  | .list => .endInList
  | .object => .endInObject

/-- The reason for refusing anything but a comma or the closer after an element. -/
def Frame.closeReason : Frame → Reason
  | .list => .expectedListEnd
  | .object => .expectedObjectEnd

/-- Goes to where the next element of a frame has its value. -/
def Frame.toValue : Frame → Bytes → Except Fault Bytes
  | .list, bytes => .ok bytes
  | .object, bytes => skipName bytes

/-- Going to the value adds nothing. -/
theorem Frame.length_toValue_le {frame : Frame} {bytes rest : Bytes}
    (h : frame.toValue bytes = .ok rest) : rest.length ≤ bytes.length := by
  cases frame with
  | list => simp only [Frame.toValue, Except.ok.injEq] at h; simp [h]
  | object => exact Nat.le_of_lt (length_skipName_lt h)

/-- Closes frames after a value, as far as closers follow; leaves the frames that are still open,
and the bytes from their next element on. -/
def closeFrames : (frames : List Frame) → Bytes → Except Fault (List Frame × Bytes)
  | [], bytes => .ok ([], bytes)
  | frame :: frames, bytes =>
    match skipSpace bytes with
    | [] => .error (faultAfter frame.endReason [])
    | b :: rest =>
      if b = 44 then
        match frame.toValue rest with
        | .error fault => .error fault
        | .ok rest => .ok (frame :: frames, rest)
      else if b = frame.closer then closeFrames frames rest
      else .error (faultAfter frame.closeReason (b :: rest))

/-- Closing adds nothing. -/
theorem length_closeFrames_le {frames left : List Frame} {bytes rest : Bytes}
    (h : closeFrames frames bytes = .ok (left, rest)) : rest.length ≤ bytes.length := by
  induction frames generalizing bytes with
  | nil => simp only [closeFrames, Except.ok.injEq, Prod.mk.injEq] at h; simp [h.2]
  | cons frame frames ih =>
    have spaces := length_skipSpace_le bytes
    rw [closeFrames] at h
    split at h
    · simp at h
    · rename_i b tail eq
      rw [eq, List.length_cons] at spaces
      split at h
      · split at h
        · simp at h
        · rename_i value
          have := Frame.length_toValue_le value
          simp only [Except.ok.injEq, Prod.mk.injEq] at h
          rw [← h.2]; omega
      · split at h
        · have := ih h; omega
        · simp at h

/-- Opens a frame after its bracket: it may be closed at once. -/
def openFrame (frame : Frame) (frames : List Frame) (bytes : Bytes) :
    Except Fault (List Frame × Bytes) :=
  match skipSpace bytes with
  | [] => .error (faultAfter frame.endReason [])
  | b :: rest =>
    if b = frame.closer then closeFrames frames rest
    else
      match frame.toValue (b :: rest) with
      | .error fault => .error fault
      | .ok rest => .ok (frame :: frames, rest)

/-- Opening adds nothing. -/
theorem length_openFrame_le {frame : Frame} {frames left : List Frame} {bytes rest : Bytes}
    (h : openFrame frame frames bytes = .ok (left, rest)) : rest.length ≤ bytes.length := by
  have spaces := length_skipSpace_le bytes
  unfold openFrame at h
  split at h
  · simp at h
  · rename_i b tail eq
    rw [eq] at spaces
    split at h
    · have := length_closeFrames_le h
      rw [List.length_cons] at spaces; omega
    · split at h
      · simp at h
      · rename_i value
        have := Frame.length_toValue_le value
        simp only [Except.ok.injEq, Prod.mk.injEq] at h
        rw [← h.2]; omega

/-! ## Values -/

/-- Passes over a value without brackets that starts with byte `b`. -/
def skipScalar (b : UInt8) (rest : Bytes) : Except Fault Bytes :=
  if b = 34 then skipString rest
  else if b = 45 then skipNumber rest
  else if isDigit b then skipNumber (b :: rest)
  else if b = 110 then readWord [117, 108, 108] rest
  else if b = 116 then readWord [114, 117, 101] rest
  else if b = 102 then readWord [97, 108, 115, 101] rest
  else .error (faultAfter .expectedValue (b :: rest))

/-- A value without brackets takes bytes off. -/
theorem length_skipScalar_le {b : UInt8} {bytes rest : Bytes}
    (h : skipScalar b bytes = .ok rest) : rest.length ≤ bytes.length := by
  unfold skipScalar at h
  split at h
  · exact Nat.le_of_lt (length_skipString_lt h)
  · split at h
    · exact Nat.le_of_lt (length_skipNumber_lt h)
    · split at h
      · have := length_skipNumber_lt h
        rw [List.length_cons] at this; omega
      · split at h
        · exact length_readWord_le h
        · split at h
          · exact length_readWord_le h
          · split at h
            · exact length_readWord_le h
            · simp at h

/-- Passes over the next value or opening bracket inside some frames. -/
def skipPiece (frames : List Frame) (bytes : Bytes) : Except Fault (List Frame × Bytes) :=
  match skipSpace bytes with
  | [] => .error (faultAfter .endInValue [])
  | b :: rest =>
    if b = 91 then openFrame .list frames rest
    else if b = 123 then openFrame .object frames rest
    else
      match skipScalar b rest with
      | .error fault => .error fault
      | .ok rest => closeFrames frames rest

/-- Every piece takes bytes off. -/
theorem length_skipPiece_lt {frames left : List Frame} {bytes rest : Bytes}
    (h : skipPiece frames bytes = .ok (left, rest)) : rest.length < bytes.length := by
  have spaces := length_skipSpace_le bytes
  unfold skipPiece at h
  split at h
  · simp at h
  · rename_i b tail eq
    rw [eq, List.length_cons] at spaces
    split at h
    · have := length_openFrame_le h; omega
    · split at h
      · have := length_openFrame_le h; omega
      · split at h
        · simp at h
        · rename_i scalar
          have := length_skipScalar_le scalar
          have := length_closeFrames_le h
          omega

/-- Passes over a value inside some frames, and over all that they still hold. -/
def skipWithin (frames : List Frame) (bytes : Bytes) : Except Fault Bytes :=
  match h : skipPiece frames bytes with
  | .error fault => .error fault
  | .ok ([], rest) => .ok rest
  | .ok (frame :: frames, rest) =>
    have : rest.length < bytes.length := length_skipPiece_lt h
    skipWithin (frame :: frames) rest
  termination_by bytes.length

/-- Passes over a value. -/
def skipValue (bytes : Bytes) : Except Fault Bytes := skipWithin [] bytes

end PostStore.Json
