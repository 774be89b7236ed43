import Mathlib.Tactic.SplitIfs
import PostStore.Post.Document
import PostStore.Proofs.Rfc3339
/-!
# Documents are read as they were written

A byte of text is read off its written form, then a text and an instant, and then a structure whose
members have different names and are each read as they are written.  The document of a post is such
a structure, so it stands for the post.
-/

namespace PostStore

namespace Json

open Text

theorem skipSpace_of_not_isSpace {b : UInt8} (h : isSpace b = false) (rest : Bytes) :
    skipSpace (b :: rest) = b :: rest := by
  simp [skipSpace, h]

/-! ## Bytes of text -/

/-- A hexadecimal digit is read as the number that it was written for. -/
theorem hexDigitValue?_hexByte : ∀ n, n < 16 → hexDigitValue? (hexByte n) = some n := by
  decide

/-- The smallest characters are a byte each. -/
theorem utf8EncodeChar_control : ∀ n, n < 32 →
    String.utf8EncodeChar (Char.ofNat n) = [UInt8.ofNat n] := by
  decide

/-- The escape of a control character stands for it. -/
theorem readEscape_control {n : Nat} (small : n < 32) (rest : Bytes) :
    readEscape (117 :: 48 :: 48 :: hexByte (n / 16) :: hexByte (n % 16) :: rest) =
      .ok ([UInt8.ofNat n], rest) := by
  have zero : hexDigitValue? 48 = some 0 := by decide
  have hex : readHex4 (48 :: 48 :: hexByte (n / 16) :: hexByte (n % 16) :: rest) =
      .ok (n, rest) := by
    simp only [readHex4, zero, hexDigitValue?_hexByte (n / 16) (by omega),
      hexDigitValue?_hexByte (n % 16) (by omega)]
    congr 2
    omega
  have code : readCodePoint (48 :: 48 :: hexByte (n / 16) :: hexByte (n % 16) :: rest) =
      .ok (n, rest) := by
    rw [readCodePoint, hex]
    simp only
    rw [if_neg (by omega), if_neg (by omega)]
  simp only [readEscape, if_true, code, utf8EncodeChar_control n small]

/-- The escape of any other character is a letter. -/
theorem readEscape_letter {letter b : UInt8} (other : letter ≠ 117)
    (h : escapedByte? letter = some b) (rest : Bytes) :
    readEscape (letter :: rest) = .ok ([b], rest) := by
  simp only [readEscape, if_neg other, h]

/-- A piece that is written with a backslash. -/
theorem readBytes_escape {piece bytes rest : Bytes} (h : readEscape bytes = .ok (piece, rest))
    (done : Bytes) : readBytes done (92 :: bytes) = readBytes (piece.reverse ++ done) rest := by
  rw [readBytes, if_neg (by decide), if_pos rfl]
  split
  · rename_i fault
    rw [h] at fault
    cases fault
  · rename_i found
    rw [h] at found
    cases found
    rfl

/-- **A byte of text is read off its written form.** -/
theorem readBytes_writeByte (b : UInt8) (done rest : Bytes) :
    readBytes done (writeByte b ++ rest) = readBytes (b :: done) rest := by
  unfold writeByte
  split_ifs with quote backslash backspace tab line page carriage control
  · subst quote
    exact readBytes_escape (readEscape_letter (by decide) (by decide) rest) done
  · subst backslash
    exact readBytes_escape (readEscape_letter (by decide) (by decide) rest) done
  · subst backspace
    exact readBytes_escape (readEscape_letter (by decide) (by decide) rest) done
  · subst tab
    exact readBytes_escape (readEscape_letter (by decide) (by decide) rest) done
  · subst line
    exact readBytes_escape (readEscape_letter (by decide) (by decide) rest) done
  · subst page
    exact readBytes_escape (readEscape_letter (by decide) (by decide) rest) done
  · subst carriage
    exact readBytes_escape (readEscape_letter (by decide) (by decide) rest) done
  · have small : b.toNat < 32 := UInt8.lt_iff_toNat_lt.1 control
    have read := readEscape_control small rest
    rw [UInt8.ofNat_toNat] at read
    exact readBytes_escape read done
  · rw [List.singleton_append, readBytes, if_neg quote, if_neg backslash, if_neg control]

/-- The bytes of a text are read off their written form. -/
theorem readBytes_writeBytes (content done rest : Bytes) :
    readBytes done (content.flatMap writeByte ++ 34 :: rest) =
      .ok (done.reverse ++ content, rest) := by
  induction content generalizing done with
  | nil =>
    rw [List.flatMap_nil, List.nil_append, readBytes, if_pos rfl, List.append_nil]
  | cons b content ih =>
    rw [List.flatMap_cons, List.append_assoc, readBytes_writeByte, ih, List.reverse_cons,
      List.append_assoc, List.singleton_append]

/-! ## Texts and instants -/

/-- What follows the opening quote of a text is read as it was written. -/
theorem readString_writeText (text : String) (rest : Bytes) :
    readString ((utf8 text).flatMap writeByte ++ 34 :: rest) = .ok (text, rest) := by
  simp only [readString, readBytes_writeBytes, List.reverse_nil, List.nil_append, ofUtf8?_utf8]

/-- A string that is understood is read as it was written. -/
theorem readQuoted_writeText {α : Type} {expected : String} {parse : String → Except Reason α}
    {text : String} {value : α} (h : parse text = .ok value) (rest : Bytes) :
    readQuoted expected parse (writeText text ++ rest) = .ok (value, rest) := by
  have space : skipSpace (writeText text ++ rest) =
      34 :: ((utf8 text).flatMap writeByte ++ 34 :: rest) := by
    simp [writeText, writeBytes, skipSpace, isSpace]
  simp only [readQuoted, space, if_true, readString_writeText, h]

/-- A reader that reads a value as it is written, whatever follows it. -/
def Reads {α : Type} (read : Reader α) (write : α → Bytes) (value : α) : Prop :=
  ∀ rest, read (write value ++ rest) = .ok (value, rest)

/-- Texts are read as they are written. -/
theorem reads_text (text : String) : Reads readText writeText text := readQuoted_writeText rfl

/-- Regular instants are read as they are written. -/
theorem reads_instant {t : Instant} (regular : t.Regular) : Reads readInstant writeInstant t := by
  refine readQuoted_writeText ?_
  rw [Instant.ofText_toText_iff.2 regular]

/-! ## Structures -/

/-- The names of some members with the written forms of their values. -/
def pieces : (members : List Member) → Values members → List (String × Bytes)
  | [], _ => []
  | m :: ms, (value, values) => (m.name, m.write value) :: pieces ms values

/-- A written member. -/
def writePiece (piece : String × Bytes) : Bytes := writeText piece.1 ++ 58 :: piece.2

theorem writePiece_append (piece : String × Bytes) (rest : Bytes) :
    writePiece piece ++ rest =
      34 :: ((utf8 piece.1).flatMap writeByte ++ 34 :: 58 :: (piece.2 ++ rest)) := by
  simp [writePiece, writeText, writeBytes]

theorem writeMembers_eq (members : List Member) (values : Values members) :
    writeMembers members values = (pieces members values).map writePiece := by
  induction members with
  | nil => rfl
  | cons m ms ih =>
    obtain ⟨value, values⟩ := values
    rw [writeMembers, pieces, ih, List.map_cons]
    rfl

theorem map_pieces (members : List Member) (values : Values members) :
    (pieces members values).map Prod.fst = members.map Member.name := by
  induction members with
  | nil => rfl
  | cons m ms ih =>
    obtain ⟨value, values⟩ := values
    rw [pieces, List.map_cons, List.map_cons, ih]

/-- Each of the values is read as it is written. -/
def ReadsEach : (members : List Member) → Values members → Prop
  | [], _ => True
  | m :: ms, (value, values) => Reads m.read m.write value ∧ ReadsEach ms values

/-- The slots of some members of which the first ones have been read. -/
def Slots.filled : (members : List Member) → Values members → (count : Nat) → Slots members
  | [], _, _ => ()
  | _ :: ms, _, 0 => (none, Slots.empty ms)
  | _ :: ms, (value, values), count + 1 => (some value, Slots.filled ms values count)

theorem Slots.filled_zero (members : List Member) (values : Values members) :
    Slots.filled members values 0 = Slots.empty members := by
  cases members <;> rfl

/-- Once all members have been read, there are all values. -/
theorem Slots.values_filled (members : List Member) (values : Values members) :
    Slots.values members (Slots.filled members values members.length) = .ok values := by
  induction members with
  | nil => rfl
  | cons m ms ih =>
    obtain ⟨value, values⟩ := values
    simp only [List.length_cons, Slots.filled, Slots.values, ih]

section Members

variable {members : List Member} {values : Values members}

theorem skipColon_cons (rest : Bytes) : skipColon (58 :: rest) = .ok rest := rfl

/-- After its name, a member is read into the next slot. -/
theorem readMember_filled (reads : ReadsEach members values)
    (distinct : (members.map Member.name).Nodup) {count : Nat} {piece : String × Bytes}
    (place : (pieces members values)[count]? = some piece) (rest : Bytes) :
    readMember piece.1 members (Slots.filled members values count) (58 :: (piece.2 ++ rest)) =
      .ok (Slots.filled members values (count + 1), rest) := by
  induction members generalizing count with
  | nil => cases place
  | cons m ms ih =>
    obtain ⟨value, values⟩ := values
    rw [List.map_cons, List.nodup_cons] at distinct
    cases count with
    | zero =>
      cases place
      simp only [Slots.filled, readMember, if_true, skipColon_cons,
        reads.1 rest, Slots.filled_zero]
    | succ count =>
      rw [pieces, List.getElem?_cons_succ] at place
      -- the names differ, so the member goes past the slots that are filled
      have other : m.name ≠ piece.1 := by
        intro same
        have member := List.mem_map_of_mem (f := Prod.fst) (List.mem_of_getElem? place)
        rw [map_pieces, ← same] at member
        exact distinct.1 member
      simp only [Slots.filled, readMember, if_neg other]
      rw [ih reads.2 distinct.2 place]

/-- From where the name of a member starts, the member is read into the next slot. -/
theorem readMembers_piece (reads : ReadsEach members values)
    (distinct : (members.map Member.name).Nodup) {count : Nat} {piece : String × Bytes}
    (place : (pieces members values)[count]? = some piece) {first : Bool} {bytes rest : Bytes}
    (next : nextName first bytes = .ok (writePiece piece ++ rest)) (fuel : Nat) :
    readMembers members (fuel + 1) first (Slots.filled members values count) bytes =
      readMembers members fuel false (Slots.filled members values (count + 1)) rest := by
  rw [writePiece_append] at next
  rw [readMembers, next]
  simp only [readString_writeText, readMember_filled reads distinct place]
  rfl

/-- The members after the first are read into their slots, up to the closing bracket. -/
theorem readMembers_rest (reads : ReadsEach members values)
    (distinct : (members.map Member.name).Nodup) (rest : Bytes) (left : List (String × Bytes)) :
    ∀ {count fuel : Nat}, (pieces members values).drop count = left → count ≤ members.length →
      (left.flatMap (fun piece => 44 :: writePiece piece) ++ 125 :: rest).length < fuel →
      readMembers members fuel false (Slots.filled members values count)
          (left.flatMap (fun piece => 44 :: writePiece piece) ++ 125 :: rest) =
        .ok (Slots.filled members values members.length, rest) := by
  have length : (pieces members values).length = members.length := by
    simpa using congrArg List.length (map_pieces members values)
  -- each member that is left takes bytes, so fuel for every byte is fuel for every member
  induction left with
  | nil =>
    intro count fuel drop bound enough
    have all : count = members.length := by
      have := List.drop_eq_nil_iff.1 drop
      omega
    obtain ⟨fuel, rfl⟩ : ∃ more, fuel = more + 1 := ⟨fuel - 1, by omega⟩
    rw [all]
    rfl
  | cons piece left ih =>
    intro count fuel drop bound enough
    obtain ⟨fuel, rfl⟩ : ∃ more, fuel = more + 1 := ⟨fuel - 1, by omega⟩
    have place : (pieces members values)[count]? = some piece := by
      rw [← Nat.add_zero count, ← List.getElem?_drop, drop]
      rfl
    have drop' : (pieces members values).drop (count + 1) = left := by
      rw [← List.tail_drop, drop]
      rfl
    have within := (List.getElem?_eq_some_iff.1 place).1
    rw [List.flatMap_cons, List.append_assoc, List.cons_append] at enough ⊢
    rw [readMembers_piece reads distinct place (by rw [writePiece_append]; rfl)]
    rw [List.length_cons, List.length_append] at enough
    exact ih drop' (by omega) (by omega)

/-- What stands between the brackets of a written structure. -/
theorem flatten_intersperse {α : Type} (separator first : List α) (others : List (List α)) :
    ((first :: others).intersperse separator).flatten =
      first ++ others.flatMap (separator ++ ·) := by
  induction others generalizing first with
  | nil => simp
  | cons next others ih => simp [ih]

/-- **A structure is read as it was written.** -/
theorem readStruct_writeStruct (title : String) (reads : ReadsEach members values)
    (distinct : (members.map Member.name).Nodup) (rest : Bytes) :
    readStruct title members (writeStruct members values ++ rest) = .ok (values, rest) := by
  have read : readMembers members
      (((writeMembers members values).intersperse [44]).flatten ++ 125 :: rest).length.succ true
      (Slots.empty members)
      (((writeMembers members values).intersperse [44]).flatten ++ 125 :: rest) =
        .ok (Slots.filled members values members.length, rest) := by
    have length : (pieces members values).length = members.length := by
      simpa using congrArg List.length (map_pieces members values)
    rw [writeMembers_eq]
    cases all : pieces members values with
    | nil =>
      obtain rfl : members = [] := List.eq_nil_of_length_eq_zero (by rw [← length, all]; rfl)
      rfl
    | cons piece left =>
      have others : (left.map writePiece).flatMap (([44] : Bytes) ++ ·) =
          left.flatMap fun piece => 44 :: writePiece piece := by
        rw [List.flatMap_map]
        rfl
      rw [List.map_cons, flatten_intersperse, others, List.append_assoc,
        ← Slots.filled_zero _ values,
        readMembers_piece reads distinct (by rw [all]; rfl) (by rw [writePiece_append]; rfl)]
      refine readMembers_rest reads distinct rest left (by rw [all]; rfl) ?_ ?_
      · rw [← length, all]
        exact Nat.succ_le_succ (Nat.zero_le _)
      · rw [writePiece_append]
        simp only [List.length_append, List.length_cons]
        omega
  have start : skipSpace (writeStruct members values ++ rest) =
      123 :: (((writeMembers members values).intersperse [44]).flatten ++ 125 :: rest) := by
    simp [writeStruct, skipSpace, isSpace]
  simp only [readStruct, start, if_true, readObject, read, Slots.values_filled]

end Members

end Json

namespace Post

open Json

/-- The members of the document of a regular post are read as they are written. -/
theorem reads_members {post : Post} (regular : post.Regular) :
    ReadsEach members post.toValues :=
  ⟨reads_text _, reads_text _, reads_text _, reads_instant regular.createdAt,
    reads_instant regular.updatedAt, trivial⟩

/-- **The document of a regular post stands for the post.** -/
theorem ofDocument_toDocument {post : Post} (regular : post.Regular) :
    ofDocument post.toDocument = .ok post := by
  have read := readStruct_writeStruct "Record" (reads_members regular) (by decide) []
  rw [List.append_nil] at read
  simp only [ofDocument, readDocument, Post.read, toDocument, read, ofValues_toValues]
  rfl

end Post

end PostStore
