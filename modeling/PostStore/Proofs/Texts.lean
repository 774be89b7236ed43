import PostStore.Text.Bytes
/-!
# Bytes that are text

The UTF-8 form of a text is made up of its characters: bytes below 128 are characters of their own,
and every other character consists of bytes from 128 on.  So texts put together are a text, and a
text is cut at a byte below 128 into two texts.
-/

namespace PostStore.Text

theorem utf8_of_ofUtf8? {bytes : Bytes} {text : String} (read : ofUtf8? bytes = some text) :
    utf8 text = bytes := by
  unfold ofUtf8? String.fromUTF8? at read
  split at read
  · cases read
    rfl
  · cases read

theorem utf8_inj {text text' : String} (same : utf8 text = utf8 text') : text = text' := by
  have read := ofUtf8?_utf8 text
  rw [same, ofUtf8?_utf8] at read
  cases read
  rfl

/-- The bytes of a text. -/
def IsText (bytes : Bytes) : Prop := ∃ text, utf8 text = bytes

theorem utf8_ofList (chars : List Char) :
    utf8 (String.ofList chars) = chars.flatMap String.utf8EncodeChar := by
  rw [utf8, String.toByteArray_ofList, List.utf8Encode, List.data_toByteArray]

theorem utf8_eq_flatMap (text : String) :
    utf8 text = text.toList.flatMap String.utf8EncodeChar := by
  rw [← utf8_ofList, String.ofList_toList]

theorem isText_nil : IsText [] := ⟨"", rfl⟩

theorem IsText.append {front back : Bytes} (first : IsText front) (second : IsText back) :
    IsText (front ++ back) := by
  obtain ⟨text, rfl⟩ := first
  obtain ⟨text', rfl⟩ := second
  refine ⟨text ++ text', ?_⟩
  simp only [utf8_eq_flatMap, String.toList_append, List.flatMap_append]

theorem isText_flatMap {α : Type} {write : α → Bytes} {values : List α}
    (each : ∀ value ∈ values, IsText (write value)) : IsText (values.flatMap write) := by
  induction values with
  | nil => exact isText_nil
  | cons value values ih =>
    rw [List.flatMap_cons]
    exact (each value List.mem_cons_self).append
      (ih fun other member => each other (List.mem_cons_of_mem value member))

/-- A byte below 128 is a character of its own. -/
theorem utf8EncodeChar_small {n : Nat} (small : n < 128) :
    String.utf8EncodeChar (Char.ofNat n) = [UInt8.ofNat n] := by
  have all : ∀ n, n < 128 → String.utf8EncodeChar (Char.ofNat n) = [UInt8.ofNat n] := by decide
  exact all n small

/-- Bytes below 128 are text. -/
theorem isText_of_small {bytes : Bytes} (small : ∀ b ∈ bytes, b < 128) : IsText bytes := by
  refine ⟨String.ofList (bytes.map fun b => Char.ofNat b.toNat), ?_⟩
  rw [utf8_ofList]
  induction bytes with
  | nil => rfl
  | cons b bytes ih =>
    have first : b.toNat < 128 := UInt8.lt_iff_toNat_lt.1 (small b List.mem_cons_self)
    rw [List.map_cons, List.flatMap_cons, utf8EncodeChar_small first, UInt8.ofNat_toNat,
      ih fun b' member => small b' (List.mem_cons_of_mem b member)]
    rfl

/-- A character is one byte below 128, or bytes from 128 on. -/
theorem utf8EncodeChar_cases (c : Char) :
    (∃ b, b < 128 ∧ String.utf8EncodeChar c = [b]) ∨
      ∀ b ∈ String.utf8EncodeChar c, ¬ b < 128 := by
  have valid : c.val.toNat < 1114112 := by
    have bound := c.valid
    unfold UInt32.isValidChar Nat.isValidChar at bound
    omega
  have high : ∀ n, 128 ≤ n → n < 256 → ¬ UInt8.ofNat n < 128 := by
    intro n low high below
    have value := UInt8.lt_iff_toNat_lt.1 below
    rw [UInt8.toNat_ofNat_of_lt' high] at value
    exact absurd value (Nat.not_lt.2 low)
  simp only [String.utf8EncodeChar]
  split
  · rename_i small
    refine .inl ⟨_, ?_, rfl⟩
    have byte : c.val.toNat < UInt8.size := by
      show c.val.toNat < 256
      omega
    rw [UInt8.lt_iff_toNat_lt, UInt8.toNat_ofNat_of_lt' byte]
    exact Nat.lt_succ_of_le small
  · refine .inr ?_
    intro b member
    split at member
    · simp only [List.mem_cons, List.not_mem_nil, or_false] at member
      rcases member with rfl | rfl <;> exact high _ (by omega) (by omega)
    · split at member
      · simp only [List.mem_cons, List.not_mem_nil, or_false] at member
        rcases member with rfl | rfl | rfl <;> exact high _ (by omega) (by omega)
      · simp only [List.mem_cons, List.not_mem_nil, or_false] at member
        rcases member with rfl | rfl | rfl | rfl <;> exact high _ (by omega) (by omega)

/-- The bytes of a character are a text. -/
theorem isText_utf8EncodeChar (c : Char) : IsText (String.utf8EncodeChar c) :=
  ⟨String.ofList [c], by rw [utf8_ofList, List.flatMap_singleton]⟩

/-- A text is cut at a byte below 128 into two texts. -/
theorem IsText.split {front back : Bytes} {b : UInt8} (small : b < 128)
    (text : IsText (front ++ b :: back)) : IsText front ∧ IsText back := by
  obtain ⟨text, eq⟩ := text
  rw [utf8_eq_flatMap] at eq
  -- character by character: the byte is a character of its own, or it comes after the character
  generalize text.toList = chars at eq
  induction chars generalizing front with
  | nil => cases front <;> cases eq
  | cons c chars ih =>
    have rest : IsText (chars.flatMap String.utf8EncodeChar) :=
      ⟨String.ofList chars, utf8_ofList chars⟩
    have character := isText_utf8EncodeChar c
    rw [List.flatMap_cons, List.append_eq_append_iff] at eq
    rcases eq with ⟨more, rfl, eq⟩ | ⟨more, eq, same⟩
    · obtain ⟨first, second⟩ := ih eq
      exact ⟨character.append first, second⟩
    · cases more with
      | nil =>
        rw [List.nil_append] at same
        have here : chars.flatMap String.utf8EncodeChar = [] ++ b :: back := same.symm
        obtain ⟨_, second⟩ := ih here
        rw [List.append_nil] at eq
        rw [← eq]
        exact ⟨character, second⟩
      | cons b' more =>
        rw [List.cons_append] at same
        cases same
        rcases utf8EncodeChar_cases c with ⟨b', _, one⟩ | high
        · rw [one] at eq
          cases front with
          | nil =>
            cases eq
            exact ⟨isText_nil, rest⟩
          | cons f front => cases front <;> cases eq
        · apply absurd small
          apply high
          rw [eq]
          exact List.mem_append_right front List.mem_cons_self

/-- What follows a byte below 128 in a text is a text. -/
theorem IsText.tail {back : Bytes} {b : UInt8} (text : IsText (b :: back)) (small : b < 128) :
    IsText back := by
  have cut : IsText ([] ++ b :: back) := text
  exact (cut.split small).2

end PostStore.Text
