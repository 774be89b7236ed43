import Mathlib.Tactic.SplitIfs
import PostStore.Proofs.Document
import PostStore.Proofs.Json.Grammar
import PostStore.Proofs.Texts
/-!
# Strings are read exactly

The readers of hexadecimal digits, escapes and strings accept what the grammar describes and nothing
else, and what is left is determined.  A string in a text stands for a text: an escape denotes a
character, and bytes that stand for themselves are cut off from the rest of the text only at bytes
below 128, where one character ends and another starts.
-/

namespace PostStore

namespace Json

open Grammar Text

/-! ## Escapes -/

theorem hexDigitValue?_eq_some {b : UInt8} {n : Nat} :
    hexDigitValue? b = some n ↔ HexDigit b n := by
  constructor
  · intro read
    -- each range of bytes is its first byte and a number
    have shifted : ∀ {start m : Nat}, b.toNat = start + m → b = UInt8.ofNat (start + m) := by
      intro start m eq
      rw [← eq, UInt8.ofNat_toNat]
    unfold hexDigitValue? at read
    simp only [Bool.and_eq_true, decide_eq_true_eq, UInt8.le_iff_toNat_le] at read
    split_ifs at read with decimal lower upper
    · obtain ⟨m, eq⟩ := Nat.exists_eq_add_of_le decimal.1
      have bound : b.toNat ≤ 57 := decimal.2
      change b.toNat = 48 + m at eq
      cases read
      rw [show b.toNat - 48 = m by omega, shifted eq]
      exact .decimal (by omega)
    · obtain ⟨m, eq⟩ := Nat.exists_eq_add_of_le lower.1
      have bound : b.toNat ≤ 102 := lower.2
      change b.toNat = 97 + m at eq
      cases read
      rw [show b.toNat - 87 = 10 + m by omega, shifted eq]
      exact .lower (by omega)
    · obtain ⟨m, eq⟩ := Nat.exists_eq_add_of_le upper.1
      have bound : b.toNat ≤ 70 := upper.2
      change b.toNat = 65 + m at eq
      cases read
      rw [show b.toNat - 55 = 10 + m by omega, shifted eq]
      exact .upper (by omega)
  · intro digit
    have decimals : ∀ n, n < 10 → hexDigitValue? (UInt8.ofNat (48 + n)) = some n := by decide
    have lowers : ∀ n, n < 6 → hexDigitValue? (UInt8.ofNat (97 + n)) = some (10 + n) := by decide
    have uppers : ∀ n, n < 6 → hexDigitValue? (UInt8.ofNat (65 + n)) = some (10 + n) := by decide
    cases digit with
    | decimal small => exact decimals _ small
    | lower small => exact lowers _ small
    | upper small => exact uppers _ small

theorem readHex4_eq_ok {t t' : Bytes} {n : Nat} : readHex4 t = .ok (n, t') ↔ Hex4 t n t' := by
  constructor
  · intro read
    unfold readHex4 at read
    split at read
    · split at read
      · rename_i first second third fourth
        cases read
        exact .digits (hexDigitValue?_eq_some.1 first) (hexDigitValue?_eq_some.1 second)
          (hexDigitValue?_eq_some.1 third) (hexDigitValue?_eq_some.1 fourth)
      · cases read
    · cases read
  · intro hex
    cases hex with
    | digits first second third fourth =>
      simp only [readHex4, hexDigitValue?_eq_some.2 first, hexDigitValue?_eq_some.2 second,
        hexDigitValue?_eq_some.2 third, hexDigitValue?_eq_some.2 fourth]

theorem escapedByte?_eq_some {a b : UInt8} : escapedByte? a = some b ↔ (a, b) ∈ letters := by
  constructor
  · intro read
    unfold escapedByte? at read
    split_ifs at read with self backspace page line carriage tab
    · cases read
      rcases self with rfl | rfl | rfl <;> decide
    all_goals
      subst a
      cases read
      decide
  · intro known
    simp only [letters, List.mem_cons, Prod.mk.injEq, List.not_mem_nil, or_false] at known
    rcases known with ⟨rfl, rfl⟩ | ⟨rfl, rfl⟩ | ⟨rfl, rfl⟩ | ⟨rfl, rfl⟩ | ⟨rfl, rfl⟩ | ⟨rfl, rfl⟩ |
      ⟨rfl, rfl⟩ | ⟨rfl, rfl⟩ <;> rfl

/-- The letter of an escape with digits stands for no byte. -/
theorem ne_of_mem_letters {a b : UInt8} (known : (a, b) ∈ letters) : a ≠ 117 := by
  rintro rfl
  have none : escapedByte? 117 = none := by decide
  rw [escapedByte?_eq_some.2 known] at none
  cases none

/-- The second half of a pair is read exactly. -/
theorem readLowSurrogate_eq_ok {high code : Nat} {t t' : Bytes} :
    readLowSurrogate high t = .ok (code, t') ↔
      ∃ low t1, t = 92 :: 117 :: t1 ∧ Hex4 t1 low t' ∧ (0xdc00 ≤ low ∧ low ≤ 0xdfff) ∧
        code = (high - 0xd800) * 0x400 + (low - 0xdc00) + 0x10000 := by
  constructor
  · intro read
    unfold readLowSurrogate at read
    split at read
    · cases read
    · split_ifs at read with backslash
      split at read
      · cases read
      · split_ifs at read with letter
        split at read
        · cases read
        · rename_i low _ hex
          split_ifs at read with range
          cases read
          rw [Decidable.not_not.1 backslash, Decidable.not_not.1 letter]
          exact ⟨low, _, rfl, readHex4_eq_ok.1 hex, range, rfl⟩
  · rintro ⟨low, t1, rfl, hex, range, rfl⟩
    simp only [readLowSurrogate, ne_eq, not_true_eq_false, if_false, readHex4_eq_ok.2 hex,
      if_pos range]

/-- What follows a backslash is read exactly. -/
theorem readEscape_eq_ok {t piece t' : Bytes} :
    readEscape t = .ok (piece, t') ↔ Escape t piece t' := by
  constructor
  · intro read
    unfold readEscape at read
    split at read
    · cases read
    · split_ifs at read with digits
      · subst digits
        split at read
        · cases read
        · rename_i code _ point
          cases read
          unfold readCodePoint at point
          split at point
          · cases point
          · rename_i hex
            have first := readHex4_eq_ok.1 hex
            split_ifs at point with low high
            · obtain ⟨low, t1, rfl, second, range, rfl⟩ := readLowSurrogate_eq_ok.1 point
              exact .pair first second high range
            · cases point
              exact .character first (by omega)
      · split at read
        · rename_i known
          cases read
          exact .letter (escapedByte?_eq_some.1 known)
        · cases read
  · intro escape
    cases escape with
    | letter known =>
      simp only [readEscape, if_neg (ne_of_mem_letters known), escapedByte?_eq_some.2 known]
    | character hex range =>
      simp only [readEscape, if_true, readCodePoint, readHex4_eq_ok.2 hex]
      rw [if_neg (by omega), if_neg (by omega)]
    | @pair high low t t1 t' first second highRange lowRange =>
      have rest : readLowSurrogate high (92 :: 117 :: t1) = .ok (_, t') :=
        readLowSurrogate_eq_ok.2 ⟨low, t1, rfl, second, lowRange, rfl⟩
      simp only [readEscape, if_true, readCodePoint, readHex4_eq_ok.2 first]
      rw [if_neg (by omega), if_pos highRange, rest]

/-- What follows a backslash is passed over exactly. -/
theorem skipEscape_eq_ok {t t' : Bytes} : skipEscape t = .ok t' ↔ Escaped t t' := by
  constructor
  · intro skip
    unfold skipEscape at skip
    split at skip
    · cases skip
    · split_ifs at skip with digits
      · subst digits
        split at skip
        · cases skip
        · rename_i hex
          cases skip
          exact .code (readHex4_eq_ok.1 hex)
      · split at skip
        · rename_i known
          cases skip
          exact .letter (escapedByte?_eq_some.1 known)
        · cases skip
  · intro escaped
    cases escaped with
    | letter known =>
      simp only [skipEscape, if_neg (ne_of_mem_letters known), escapedByte?_eq_some.2 known]
    | code hex => simp only [skipEscape, if_true, readHex4_eq_ok.2 hex]

/-! ## Strings -/

/-- The bytes of a string are added to those already read. -/
theorem readBytes_eq_ok {done content t t' : Bytes} :
    readBytes done t = .ok (content, t') ↔
      ∃ more, content = done.reverse ++ more ∧ Quoted t more t' := by
  constructor
  · intro read
    fun_induction readBytes done t with
    | case1 => cases read
    | case2 =>
      cases read
      exact ⟨[], (List.append_nil _).symm, .close⟩
    | case3 => cases read
    | case4 done rest piece t1 escape _ _ ih =>
      obtain ⟨more, rfl, quoted⟩ := ih read
      refine ⟨piece ++ more, ?_, .escape (readEscape_eq_ok.1 escape) quoted⟩
      rw [List.reverse_append, List.reverse_reverse, List.append_assoc]
    | case5 => cases read
    | case6 done b rest quote backslash control ih =>
      obtain ⟨more, rfl, quoted⟩ := ih read
      refine ⟨b :: more, ?_, .plain control quote backslash quoted⟩
      rw [List.reverse_cons, List.append_assoc, List.singleton_append]
  · rintro ⟨more, rfl, quoted⟩
    induction quoted generalizing done with
    | close => rw [readBytes, if_pos rfl, List.append_nil]
    | plain control quote backslash _ ih =>
      rw [readBytes, if_neg quote, if_neg backslash, if_neg control, ih, List.reverse_cons,
        List.append_assoc, List.singleton_append]
    | escape escape _ ih =>
      rw [readBytes_escape (readEscape_eq_ok.2 escape), ih, List.reverse_append,
        List.reverse_reverse, List.append_assoc]

/-- **A string is read exactly as the text that it stands for.** -/
theorem readString_eq_ok {t t' : Bytes} {text : String} :
    readString t = .ok (text, t') ↔ Quoted t (utf8 text) t' := by
  constructor
  · intro read
    unfold readString at read
    split at read
    · cases read
    · rename_i bytes
      split at read
      · rename_i known
        cases read
        obtain ⟨more, rfl, quoted⟩ := readBytes_eq_ok.1 bytes
        rwa [utf8_of_ofUtf8? known]
      · cases read
  · intro quoted
    have bytes : readBytes [] t = .ok (utf8 text, t') := readBytes_eq_ok.2 ⟨_, rfl, quoted⟩
    simp only [readString, bytes, ofUtf8?_utf8]

/-- **A string is passed over exactly when it has the form of one.** -/
theorem skipString_eq_ok {t t' : Bytes} : skipString t = .ok t' ↔ Passed t t' := by
  constructor
  · intro skip
    fun_induction skipString t with
    | case1 => cases skip
    | case2 =>
      cases skip
      exact .close
    | case3 => cases skip
    | case4 rest t1 escape _ _ ih => exact .escape (skipEscape_eq_ok.1 escape) (ih skip)
    | case5 => cases skip
    | case6 b rest quote backslash control ih => exact .plain control quote backslash (ih skip)
  · intro passed
    induction passed with
    | close => rw [skipString, if_pos rfl]
    | plain control quote backslash _ ih =>
      rw [skipString, if_neg quote, if_neg backslash, if_neg control, ih]
    | escape escaped _ ih =>
      rw [skipString, if_neg (by decide), if_pos rfl]
      split
      · rename_i fault
        rw [skipEscape_eq_ok.2 escaped] at fault
        cases fault
      · rename_i found
        rw [skipEscape_eq_ok.2 escaped] at found
        cases found
        exact ih

theorem Grammar.Quoted.length_lt {t content t' : Bytes} (quoted : Quoted t content t') :
    t'.length < t.length :=
  length_skipString_lt (skipString_eq_ok.2 quoted.passed)

/-! ## Strings in a text -/

namespace Grammar

theorem HexDigit.small {b : UInt8} {n : Nat} (digit : HexDigit b n) : b < 128 := by
  have decimals : ∀ n, n < 10 → UInt8.ofNat (48 + n) < 128 := by decide
  have lowers : ∀ n, n < 6 → UInt8.ofNat (97 + n) < 128 := by decide
  have uppers : ∀ n, n < 6 → UInt8.ofNat (65 + n) < 128 := by decide
  cases digit with
  | decimal small => exact decimals _ small
  | lower small => exact lowers _ small
  | upper small => exact uppers _ small

theorem Hex4.isText {t t' : Bytes} {n : Nat} (hex : Hex4 t n t') (text : IsText t) :
    IsText t' := by
  cases hex with
  | digits first second third fourth =>
    exact (((text.tail first.small).tail second.small).tail third.small).tail fourth.small

/-- An escape in a text denotes a text. -/
theorem Escape.isText {t piece t' : Bytes} (escape : Escape t piece t') (text : IsText t) :
    IsText piece ∧ IsText t' := by
  cases escape with
  | letter known =>
    have small : ∀ entry ∈ letters, entry.1 < 128 ∧ entry.2 < 128 := by simp [letters]
    constructor
    · apply isText_of_small
      intro b member
      rw [List.mem_singleton.1 member]
      exact (small _ known).2
    · exact text.tail (small _ known).1
  | character hex _ =>
    exact ⟨isText_utf8EncodeChar _, hex.isText (text.tail (by decide))⟩
  | pair first second _ _ =>
    have behind := first.isText (text.tail (by decide))
    exact ⟨isText_utf8EncodeChar _, second.isText ((behind.tail (by decide)).tail (by decide))⟩

/-- Bytes before a string, together with it, stand for a text if they are one: a character may
have started there. -/
theorem Quoted.isText_append {front t content t' : Bytes} (quoted : Quoted t content t')
    (text : IsText (front ++ t)) : IsText (front ++ content) ∧ IsText t' := by
  induction quoted generalizing front with
  | close =>
    obtain ⟨first, second⟩ := text.split (by decide)
    rw [List.append_nil]
    exact ⟨first, second⟩
  | @plain b t content t' _ _ _ _ ih =>
    have shifted : front ++ b :: t = front ++ [b] ++ t := by
      rw [List.append_assoc, List.singleton_append]
    rw [shifted] at text
    obtain ⟨first, second⟩ := ih text
    rw [List.append_assoc, List.singleton_append] at first
    exact ⟨first, second⟩
  | escape escape _ ih =>
    obtain ⟨first, second⟩ := text.split (by decide)
    obtain ⟨denoted, behind⟩ := escape.isText second
    have fresh : IsText ([] ++ _) := behind
    obtain ⟨inside, rest⟩ := ih fresh
    exact ⟨first.append (denoted.append inside), rest⟩

/-- **A string in a text stands for a text.** -/
theorem Quoted.isText {t content t' : Bytes} (quoted : Quoted t content t') (text : IsText t) :
    IsText content ∧ IsText t' := by
  have fresh : IsText ([] ++ t) := text
  exact quoted.isText_append fresh

end Grammar

end Json

end PostStore
