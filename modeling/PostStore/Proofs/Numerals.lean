import PostStore.Text.Blank
import PostStore.Text.Numeral
/-!
# Blanks and numerals

What is left of a text between blanks, and which texts are read as a number: digits, perhaps with a
plus sign before them, as long as the number is within the bound.
-/

namespace PostStore

namespace Text

/-! ## Blanks at the ends -/

/-- A word with nothing but blanks around it, and no blanks at its own ends. -/
structure Trimmed (raw word : List Char) : Prop where
  around : ∃ before after, raw = before ++ word ++ after ∧ (∀ c ∈ before, isBlank c = true) ∧
    ∀ c ∈ after, isBlank c = true
  head : ∀ c ∈ word.head?, isBlank c = false
  last : ∀ c ∈ word.getLast?, isBlank c = false

theorem trimStart_append {front : List Char} (blank : ∀ c ∈ front, isBlank c = true)
    (rest : List Char) : trimStart (front ++ rest) = trimStart rest :=
  List.dropWhile_append_of_pos blank

theorem trimStart_cons {c : Char} (h : isBlank c = false) (rest : List Char) :
    trimStart (c :: rest) = c :: rest := by
  simp [trimStart, h]

theorem trimStart_eq_self {text : List Char} (head : ∀ c ∈ text.head?, isBlank c = false) :
    trimStart text = text := by
  cases text with
  | nil => rfl
  | cons c rest => exact trimStart_cons (head c rfl) rest

theorem exists_blank_append (text : List Char) :
    ∃ front, text = front ++ trimStart text ∧ ∀ c ∈ front, isBlank c = true :=
  ⟨text.takeWhile isBlank, List.takeWhile_append_dropWhile.symm,
    List.all_eq_true.1 List.all_takeWhile⟩

/-- What is left of a text starts with no blank. -/
theorem head?_trimStart (text : List Char) : ∀ c ∈ (trimStart text).head?, isBlank c = false := by
  intro c member
  obtain ⟨rest, here⟩ := List.head?_eq_some_iff.1 member
  exact isBlank_head_trimStart here

theorem Trimmed.trim_eq {raw word : List Char} (trimmed : Trimmed raw word) : trim raw = word := by
  obtain ⟨before, after, rfl, front, back⟩ := trimmed.around
  unfold trim
  rw [List.append_assoc, trimStart_append front]
  cases word with
  | nil =>
    -- nothing but blanks: the first cut takes all of them
    have nothing : trimStart after = [] := by
      rw [← List.append_nil after, trimStart_append back]
      rfl
    rw [List.nil_append, nothing]
    rfl
  | cons c rest =>
    have whole : trimStart (c :: rest ++ after) = c :: rest ++ after :=
      trimStart_eq_self trimmed.head
    rw [whole, List.reverse_append,
      trimStart_append fun c member => back c (List.mem_reverse.1 member),
      trimStart_eq_self (by rw [List.head?_reverse]; exact trimmed.last), List.reverse_reverse]

theorem trimmed_trim (raw : List Char) : Trimmed raw (trim raw) := by
  obtain ⟨before, whole, front⟩ := exists_blank_append raw
  obtain ⟨after, rest, back⟩ := exists_blank_append (trimStart raw).reverse
  have kept : trimStart raw = trim raw ++ after.reverse := by
    rw [← List.reverse_reverse (trimStart raw), rest, List.reverse_append]
    rfl
  refine ⟨⟨before, after.reverse, ?_, front, fun c member => back c (List.mem_reverse.1 member)⟩,
    ?_, ?_⟩
  · rw [List.append_assoc, ← kept]
    exact whole
  · intro c member
    refine head?_trimStart raw c ?_
    rw [kept, List.head?_append, Option.mem_def.1 member]
    rfl
  · rw [trim, List.getLast?_reverse]
    exact head?_trimStart _

/-- **Trimming takes away the blanks around a word, and nothing else.** -/
theorem trimmed_iff {raw word : List Char} : Trimmed raw word ↔ trim raw = word :=
  ⟨Trimmed.trim_eq, fun same => same ▸ trimmed_trim raw⟩

/-! ## Numerals -/

/-- An unsigned decimal numeral: digits, perhaps with a plus sign before them. -/
def IsNumeral (text : List Char) (n : Nat) : Prop :=
  ∃ digits, (text = digits ∨ text = '+' :: digits) ∧ digits ≠ [] ∧
    (∀ c ∈ digits, c.isDigit = true) ∧ n = Nat.ofDigitChars 10 digits 0

theorem digitValue?_eq (c : Char) :
    digitValue? c = if c.isDigit = true then some (c.toNat - 48) else none := rfl

theorem le_ofDigitChars (digits : List Char) :
    ∀ value, value ≤ Nat.ofDigitChars 10 digits value := by
  induction digits with
  | nil => exact fun value => Nat.le_of_eq Nat.ofDigitChars_nil.symm
  | cons c digits ih =>
    intro value
    rw [Nat.ofDigitChars_cons]
    exact Nat.le_trans (by omega) (ih _)

/-- Digits are read to their end unless the number passes the bound. -/
theorem readDigits_eq_ok {bound n : Nat} (digits : List Char) : ∀ {value : Nat}, value ≤ bound →
    (readDigits bound value digits = .ok n ↔
      (∀ c ∈ digits, c.isDigit = true) ∧ n = Nat.ofDigitChars 10 digits value ∧ n ≤ bound) := by
  induction digits with
  | nil =>
    intro value fits
    simp only [readDigits, Nat.ofDigitChars_nil, Except.ok.injEq, List.not_mem_nil]
    constructor
    · rintro rfl
      exact ⟨fun _ none => none.elim, rfl, fits⟩
    · exact fun read => read.2.1.symm
  | cons c digits ih =>
    intro value fits
    rw [readDigits, digitValue?_eq, Nat.ofDigitChars_cons, List.forall_mem_cons]
    by_cases digit : c.isDigit = true
    · rw [if_pos digit]
      have next : value * 10 + (c.toNat - 48) = 10 * value + (c.toNat - '0'.toNat) := by
        rw [Nat.mul_comm]
        rfl
      simp only [next, digit, true_and]
      by_cases small : 10 * value + (c.toNat - '0'.toNat) ≤ bound
      · rw [if_pos small]
        exact ih small
      · -- the digits to come make the number no smaller
        rw [if_neg small]
        have large := le_ofDigitChars digits (10 * value + (c.toNat - '0'.toNat))
        constructor
        · intro read
          cases read
        · rintro ⟨-, rfl, within⟩
          exact absurd (Nat.le_trans large within) small
    · simp [digit]

theorem readUnsigned_plus (bound : Nat) {digits : List Char} (some : digits ≠ []) :
    readUnsigned bound ('+' :: digits) = readDigits bound 0 digits := by
  cases digits with
  | nil => exact absurd rfl some
  | cons c rest => rfl

theorem readUnsigned_cons (bound : Nat) {c : Char} (unsigned : c ≠ '+') (rest : List Char) :
    readUnsigned bound (c :: rest) = readDigits bound 0 (c :: rest) := by
  unfold readUnsigned
  split <;> simp_all

/-- **A number is read just where a numeral within the bound stands.** -/
theorem readUnsigned_eq_ok {bound n : Nat} (text : List Char) :
    readUnsigned bound text = .ok n ↔ IsNumeral text n ∧ n ≤ bound := by
  constructor
  · intro read
    match text, read with
    | [], read => exact nomatch read
    | c :: rest, read =>
      by_cases sign : c = '+'
      · subst sign
        have some : rest ≠ [] := by
          rintro rfl
          exact nomatch read
        rw [readUnsigned_plus bound some, readDigits_eq_ok rest (Nat.zero_le bound)] at read
        exact ⟨⟨rest, .inr rfl, some, read.1, read.2.1⟩, read.2.2⟩
      · rw [readUnsigned_cons bound sign, readDigits_eq_ok _ (Nat.zero_le bound)] at read
        exact ⟨⟨_, .inl rfl, List.cons_ne_nil c rest, read.1, read.2.1⟩, read.2.2⟩
  · rintro ⟨⟨digits, written, some, all, value⟩, fits⟩
    have read := (readDigits_eq_ok digits (Nat.zero_le bound)).2 ⟨all, value, fits⟩
    rcases written with rfl | rfl
    · cases text with
      | nil => exact absurd rfl some
      | cons c rest =>
        have digit := all c List.mem_cons_self
        have unsigned : c ≠ '+' := by
          rintro rfl
          exact absurd digit (by decide)
        rw [readUnsigned_cons bound unsigned, read]
    · rw [readUnsigned_plus bound some, read]

/-- A number within the bound is read back from its text. -/
theorem readUnsigned_toString {bound n : Nat} (fits : n ≤ bound) :
    readUnsigned bound (toString n).toList = .ok n := by
  have digits : (toString n).toList = Nat.toDigits 10 n := Nat.toList_repr
  rw [digits, readUnsigned_eq_ok]
  refine ⟨⟨_, .inl rfl, Nat.toDigits_ne_nil, fun c member => ?_, ?_⟩, fits⟩
  · exact Nat.isDigit_of_mem_toDigits (by decide) (by decide) member
  · exact Nat.ofDigitChars_ten_toDigits.symm

/-- What is read of the text of a number is that number. -/
theorem eq_of_readUnsigned_toString {bound m n : Nat}
    (read : readUnsigned bound (toString n).toList = .ok m) : m = n := by
  obtain ⟨numeral, -⟩ := (readUnsigned_eq_ok _).1 read
  have wider := (readUnsigned_eq_ok _).2 ⟨numeral, Nat.le_max_left m n⟩
  exact Except.ok.inj (wider.symm.trans (readUnsigned_toString (Nat.le_max_right m n)))

end Text

end PostStore
