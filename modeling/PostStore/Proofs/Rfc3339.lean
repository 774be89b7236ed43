import Mathlib.Algebra.Group.Nat.Defs
import PostStore.Calendar.Rfc3339.Reader
import PostStore.Calendar.Rfc3339.Writer
import PostStore.Error
import PostStore.Proofs.Calendar
import PostStore.Proofs.Numerals
/-!
# Instants are read as they were written

The digits of a number are read as that number, each part of the written form of an instant is read
off its front, and the parts make up the instant again, distant years and leap seconds at the end of
a minute included.  A leap second elsewhere has no written form of its own: it is written like the
second that follows it, and read as that.
-/

namespace PostStore

open Text

/-! ## Digits -/

namespace Text

/-- The digit of a number below ten is a decimal digit of that value, and no blank. -/
theorem digit_spec : ∀ n, n < 10 →
    (digit n).isDigit = true ∧ (digit n).toNat - 48 = n ∧ isBlank (digit n) = false := by
  decide

theorem exists_of_mem_fixedDigits {count n : Nat} {c : Char} (h : c ∈ fixedDigits count n) :
    ∃ k, k < 10 ∧ c = digit k := by
  induction count generalizing n with
  | zero => cases h
  | succ count ih =>
    rcases List.mem_append.1 h with front | last
    · exact ih front
    · exact ⟨n % 10, Nat.mod_lt n (by omega), List.mem_singleton.1 last⟩

theorem fixedDigits_eq_cons (count n : Nat) :
    ∃ k digits, k < 10 ∧ fixedDigits (count + 1) n = digit k :: digits := by
  cases eq : fixedDigits (count + 1) n with
  | nil =>
    have length := length_fixedDigits (count + 1) n
    rw [eq] at length
    cases length
  | cons c digits =>
    obtain ⟨k, small, rfl⟩ := exists_of_mem_fixedDigits (eq ▸ List.mem_cons_self : c ∈ _)
    exact ⟨k, digits, small, rfl⟩

/-- Digits stand with no blank before them. -/
theorem trimStart_fixedDigits (count n : Nat) (rest : List Char) :
    trimStart (fixedDigits (count + 1) n ++ rest) = fixedDigits (count + 1) n ++ rest := by
  obtain ⟨k, digits, small, eq⟩ := fixedDigits_eq_cons count n
  simp [eq, trimStart, (digit_spec k small).2.2]

end Text

namespace Rfc3339

theorem digitsValue_append (digits : List Char) (c : Char) :
    digitsValue (digits ++ [c]) = digitsValue digits * 10 + (c.toNat - 48) := by
  rw [digitsValue, List.foldl_append]
  rfl

/-- The digits of a number stand for it as far as they go. -/
theorem digitsValue_fixedDigits (count n : Nat) :
    digitsValue (fixedDigits count n) = n % Nat.pow 10 count := by
  induction count generalizing n with
  | zero => exact (Nat.mod_one n).symm
  | succ count ih =>
    have power : Nat.pow 10 (count + 1) = 10 * Nat.pow 10 count := Nat.mul_comm _ 10
    rw [fixedDigits, digitsValue_append, ih, (digit_spec _ (Nat.mod_lt n (by omega))).2.1]
    rw [power, Nat.mod_mul]
    omega

theorem readNumber_of_isDigit {c : Char} (h : c.isDigit = true) (width : Nat) (rest : List Char) :
    readNumber width (c :: rest) =
      .ok (digitsValue (((c :: rest).take width).takeWhile Char.isDigit),
        (c :: rest).drop (((c :: rest).take width).takeWhile Char.isDigit).length) := by
  simp only [readNumber, if_pos h]

/-- The digits of a number are read as that number, up to what is no digit. -/
theorem readNumber_fixedDigits (count width n : Nat) {c : Char} (rest : List Char)
    (fits : count + 1 ≤ width) (small : n < Nat.pow 10 (count + 1)) (stop : c.isDigit = false) :
    readNumber width (fixedDigits (count + 1) n ++ c :: rest) = .ok (n, c :: rest) := by
  have all : ∀ d ∈ fixedDigits (count + 1) n, d.isDigit = true := by
    intro d member
    obtain ⟨k, hk, rfl⟩ := exists_of_mem_fixedDigits member
    exact (digit_spec k hk).1
  have length := length_fixedDigits (count + 1) n
  have taken : ((fixedDigits (count + 1) n ++ c :: rest).take width).takeWhile Char.isDigit =
      fixedDigits (count + 1) n := by
    rw [List.take_append, List.take_of_length_le (by omega), List.takeWhile_append_of_pos all]
    cases width - (fixedDigits (count + 1) n).length <;> simp [stop]
  have value := digitsValue_fixedDigits (count + 1) n
  rw [Nat.mod_eq_of_lt small] at value
  obtain ⟨k, digits, hk, eq⟩ := fixedDigits_eq_cons count n
  rw [eq] at taken value ⊢
  rw [List.cons_append] at taken ⊢
  rw [readNumber_of_isDigit (digit_spec k hk).1, taken, value, ← List.cons_append, List.drop_left]

/-- A part of two digits is read between its bounds. -/
theorem readPart_fixedDigits {low high n : Nat} {c : Char} (rest : List Char) (ge : low ≤ n)
    (le : n ≤ high) (small : n < 100) (stop : c.isDigit = false) :
    readPart low high (fixedDigits 2 n ++ c :: rest) = .ok (n, c :: rest) := by
  rw [readPart, trimStart_fixedDigits,
    readNumber_fixedDigits 1 2 n rest (by omega) (by omega) stop]
  simp [bind, Except.bind, pure, Except.pure, ge, le]

/-! ## Parts -/

/-- A year without a sign. -/
theorem readYear_plain {c : Char} {digits rest : List Char} {n : Nat} (digit : c.isDigit = true)
    (blank : isBlank c = false) (read : readNumber 4 (c :: digits) = .ok (n, rest))
    (small : n ≤ 2147483647) : readYear (c :: digits) = .ok ((n : Int), rest) := by
  rw [readYear, trimStart_cons blank]
  split
  · rename_i head
    rw [(List.cons.inj head).1] at digit
    exact absurd digit (by decide)
  · rename_i head
    rw [(List.cons.inj head).1] at digit
    exact absurd digit (by decide)
  · simp only [read, bind, Except.bind, pure, Except.pure]
    rw [if_pos (by omega)]

/-- A year after a sign. -/
theorem readYear_signed (negative : Bool) {digits rest : List Char} {n : Nat}
    (read : readNumber digits.length digits = .ok (n, rest)) (small : n ≤ 2147483647) :
    readYear ((if negative then '-' else '+') :: digits) =
      .ok (if negative then -(n : Int) else n, rest) := by
  have blank : isBlank (if negative then '-' else '+') = false := by cases negative <;> decide
  rw [readYear, trimStart_cons blank]
  cases negative
  · simp only [read, bind, Except.bind, pure, Except.pure, Bool.false_eq_true, if_false]
    rw [if_pos (by omega)]
  · simp only [read, bind, Except.bind, pure, Except.pure, if_true]
    rw [if_pos (by omega)]

/-- A year is read as it was written. -/
theorem readYear_writeYear {year : Int} (low : -1000000 < year) (high : year < 1000000)
    (rest : List Char) : readYear (writeYear year ++ '-' :: rest) = .ok (year, '-' :: rest) := by
  have stop : '-'.isDigit = false := by decide
  by_cases plain : 0 ≤ year ∧ year ≤ 9999
  · have small : year.toNat < 10000 := by omega
    have read := readNumber_fixedDigits 3 4 year.toNat rest (by omega) small stop
    obtain ⟨k, digits, hk, eq⟩ := fixedDigits_eq_cons 3 year.toNat
    obtain ⟨digit, _, blank⟩ := digit_spec k hk
    rw [writeYear, if_pos plain]
    rw [eq, List.cons_append] at read ⊢
    rw [readYear_plain digit blank read (by omega)]
    congr 2
    omega
  · -- a sign announces that all digits that follow count, however many they are
    rw [writeYear, if_neg plain]
    obtain ⟨count, size, small⟩ : ∃ count, (if year.natAbs < 10000 then 4
        else if year.natAbs < 100000 then 5 else 6) = count + 1 ∧
          year.natAbs < Nat.pow 10 (count + 1) := by
      split
      · rename_i small
        exact ⟨3, rfl, small⟩
      · split
        · rename_i small
          exact ⟨4, rfl, small⟩
        · have small : year.natAbs < 1000000 := by omega
          exact ⟨5, rfl, small⟩
    have fits : count + 1 ≤ (fixedDigits (count + 1) year.natAbs ++ '-' :: rest).length := by
      rw [List.length_append, length_fixedDigits]
      omega
    have read := readNumber_fixedDigits count _ year.natAbs rest fits small stop
    have signed := readYear_signed (decide (year < 0)) read (by omega)
    simp only [decide_eq_true_eq] at signed
    simp only [size, List.cons_append, signed]
    congr 2
    omega

/-- Digits after a point count as the first of nine. -/
theorem readFraction_fixedDigits (count : Nat) {n : Nat} (fits : count + 1 ≤ 9)
    (small : n < Nat.pow 10 (count + 1)) (rest : List Char) :
    readFraction ('.' :: (fixedDigits (count + 1) n ++ 'Z' :: rest)) =
      .ok (n * Nat.pow 10 (9 - (count + 1)), 'Z' :: rest) := by
  have stop : 'Z'.isDigit = false := by decide
  have places : (fixedDigits (count + 1) n ++ 'Z' :: rest).length - ('Z' :: rest).length =
      count + 1 := by
    rw [List.length_append, length_fixedDigits, Nat.add_sub_cancel]
  simp only [readFraction, readNumber_fixedDigits count 9 n rest fits small stop, bind, Except.bind,
    pure, Except.pure, places, List.dropWhile_cons, stop, Bool.false_eq_true, if_false]

/-- A fraction is read as it was written. -/
theorem readFraction_writeFraction {nanos : Nat} (small : nanos < 1000000000) (rest : List Char) :
    readFraction (writeFraction nanos ++ 'Z' :: rest) = .ok (nanos, 'Z' :: rest) := by
  unfold writeFraction
  split
  · rename_i none
    rw [none]
    rfl
  · split
    · have short : nanos / 1000000 < 1000 := by omega
      rw [List.cons_append, readFraction_fixedDigits 2 (by omega) short]
      congr 2
      show nanos / 1000000 * 1000000 = nanos
      omega
    · split
      · have short : nanos / 1000 < 1000000 := by omega
        rw [List.cons_append, readFraction_fixedDigits 5 (by omega) short]
        congr 2
        show nanos / 1000 * 1000 = nanos
        omega
      · rw [List.cons_append, readFraction_fixedDigits 8 (by omega) small]
        congr 2
        exact Nat.mul_one nanos

/-- No digit follows a number that stands before a fraction. -/
theorem writeFraction_stop (nanos : Nat) :
    ∃ c rest, writeFraction nanos ++ ['Z'] = c :: rest ∧ c.isDigit = false := by
  unfold writeFraction
  split
  · exact ⟨'Z', [], rfl, by decide⟩
  · split
    · exact ⟨'.', _, rfl, by decide⟩
    · split <;> exact ⟨'.', _, rfl, by decide⟩

theorem readLiteral_self (c : Char) (rest : List Char) : readLiteral c (c :: rest) = .ok rest := by
  simp only [readLiteral, if_true]

/-! ## Instants -/

/-- The parts of an instant as they are written. -/
def partsOf (t : Instant) : Parts where
  year := t.date.year
  month := t.date.month
  day := t.date.day
  hour := t.secondOfDay / 3600
  minute := t.secondOfDay / 60 % 60
  second := t.secondOfDay % 60 + if 1000000000 ≤ t.nanos then 1 else 0
  nanos := if 1000000000 ≤ t.nanos then t.nanos - 1000000000 else t.nanos
  offset := 0

/-- The date of an instant exists and lies in the years of the time line. -/
theorem date_spec (t : Instant) :
    t.date.Valid ∧ t.date.toDays = t.seconds / 86400 ∧
      -262143 ≤ t.date.year ∧ t.date.year ≤ 262142 := by
  obtain ⟨low, high⟩ := t.bounded
  obtain ⟨valid, days, _⟩ := Date.ofDays_spec (t.seconds / 86400)
  unfold Instant.firstSecond at low
  unfold Instant.lastSecond at high
  exact ⟨valid, days, Date.year_ofDays_bounds (by omega) (by omega)⟩

/-- The parts of an instant are read as they were written. -/
theorem readParts_write (t : Instant) : readParts (write t) = .ok (partsOf t) := by
  obtain ⟨valid, _, low, high⟩ := date_spec t
  obtain ⟨⟨month, month'⟩, day, day'⟩ := valid.bounds
  have second : t.secondOfDay < 86400 := by
    unfold Instant.secondOfDay
    omega
  have nanos : (if 1000000000 ≤ t.nanos then t.nanos - 1000000000 else t.nanos) < 1000000000 := by
    have fine := t.fine
    split <;> omega
  have dash : '-'.isDigit = false := by decide
  have colon : ':'.isDigit = false := by decide
  simp only [write, writeDate, writeTime, decide_eq_true_eq, List.append_assoc, List.cons_append]
  rw [readParts, readYear_writeYear (by omega) (by omega)]
  simp only [bind, Except.bind, trimStart_cons (by decide : isBlank '-' = false), readLiteral_self]
  rw [readPart_fixedDigits _ month month' (by omega) dash]
  simp only [trimStart_cons (by decide : isBlank '-' = false), readLiteral_self]
  rw [readPart_fixedDigits _ day day' (by omega) (by decide : 'T'.isDigit = false)]
  simp only [decide_true, Bool.true_or, if_true, pure, Except.pure]
  rw [readPart_fixedDigits _ (by omega) (by omega) (by omega) colon]
  simp only [trimStart_cons (by decide : isBlank ':' = false), readLiteral_self]
  rw [readPart_fixedDigits _ (by omega) (by omega) (by omega) colon]
  simp only [trimStart_cons (by decide : isBlank ':' = false), readLiteral_self]
  obtain ⟨c, rest, eq, stop⟩ := writeFraction_stop
    (if 1000000000 ≤ t.nanos then t.nanos - 1000000000 else t.nanos)
  rw [eq, readPart_fixedDigits _ (by omega) (by split <;> omega) (by split <;> omega) stop, ← eq]
  simp only [readFraction_writeFraction nanos, trimStart_cons (by decide : isBlank 'Z' = false)]
  rfl

/-- The parts of a regular instant make it up again. -/
theorem toInstant_partsOf {t : Instant} (regular : t.Regular) : (partsOf t).toInstant = .ok t := by
  obtain ⟨valid, days, low, high⟩ := date_spec t
  unfold Parts.toInstant partsOf
  simp only
  rw [if_neg (not_not_intro ⟨low, high, valid⟩), if_neg (by decide)]
  -- a leap second is written as second sixty and otherwise shares its whole second
  have sinceMidnight : t.secondOfDay / 3600 * 3600 + t.secondOfDay / 60 % 60 * 60 +
      t.secondOfDay % 60 = t.secondOfDay := by omega
  have whole : t.date.toDays * 86400 + (t.secondOfDay : Int) - 0 = t.seconds := by
    rw [days]
    unfold Instant.secondOfDay
    omega
  by_cases leap : 1000000000 ≤ t.nanos
  · have last : t.secondOfDay % 60 = 59 := by
      have last := regular leap
      unfold Instant.secondOfDay
      omega
    rw [last] at sinceMidnight
    simp only [if_pos leap, last, if_true, sinceMidnight, whole, Nat.sub_add_cancel leap,
      Instant.ofParts?_parts]
  · have common : t.secondOfDay % 60 ≠ 60 := by omega
    simp only [if_neg leap, Nat.add_zero, if_neg common, sinceMidnight, whole,
      Instant.ofParts?_parts]

/-! ## What is read is regular -/

theorem readOffsetSize_minutes {text rest : List Char} {size : Nat}
    (read : readOffsetSize text = .ok (size, rest)) : size % 60 = 0 := by
  obtain ⟨⟨a, b, _⟩, -, read⟩ := bind_eq_ok.1 read
  dsimp only at read
  split at read
  · cases read
  · obtain ⟨⟨c, d, _⟩, -, read⟩ := bind_eq_ok.1 read
    dsimp only at read
    split at read
    · cases read
    · split at read
      · cases read
      · obtain ⟨rfl, -⟩ := Prod.mk.inj (Except.ok.inj read)
        omega

theorem readSignedOffset_minutes {text rest : List Char} {offset : Int}
    (read : readSignedOffset text = .ok (offset, rest)) : offset % 60 = 0 := by
  cases text with
  | nil => cases read
  | cons sign text =>
    simp only [readSignedOffset] at read
    split at read
    · obtain ⟨rfl, -⟩ := Prod.mk.inj (Except.ok.inj read)
      rfl
    · split at read
      · obtain ⟨⟨size, _⟩, sized, read⟩ := bind_eq_ok.1 read
        obtain ⟨rfl, -⟩ := Prod.mk.inj (Except.ok.inj read)
        have minutes := readOffsetSize_minutes sized
        omega
      · split at read
        · obtain ⟨⟨size, _⟩, sized, read⟩ := bind_eq_ok.1 read
          obtain ⟨rfl, -⟩ := Prod.mk.inj (Except.ok.inj read)
          have minutes := readOffsetSize_minutes sized
          omega
        · cases read

/-- Offsets are whole minutes. -/
theorem readOffset_minutes {text rest : List Char} {offset : Int}
    (read : readOffset text = .ok (offset, rest)) : offset % 60 = 0 := by
  unfold readOffset at read
  split at read
  · split at read
    · obtain ⟨rfl, -⟩ := Prod.mk.inj (Except.ok.inj read)
      rfl
    · exact readSignedOffset_minutes read
  · exact readSignedOffset_minutes read

/-- Digits after others stand for less than the next number with as many behind it. -/
theorem foldl_digits_lt (digits : List Char) (all : ∀ c ∈ digits, c.isDigit = true) :
    ∀ value : Nat, digits.foldl (fun value c => value * 10 + (c.toNat - 48)) value <
      (value + 1) * 10 ^ digits.length := by
  induction digits with
  | nil => exact fun value => by simp
  | cons c digits ih =>
    intro value
    have digit := all c List.mem_cons_self
    simp only [Char.isDigit, Bool.and_eq_true, decide_eq_true_eq, UInt32.le_iff_toNat_le] at digit
    have high : c.toNat ≤ 57 := digit.2
    calc digits.foldl _ (value * 10 + (c.toNat - 48))
      _ < (value * 10 + (c.toNat - 48) + 1) * 10 ^ digits.length :=
        ih (fun d member => all d (List.mem_cons_of_mem c member)) _
      _ ≤ (value + 1) * 10 * 10 ^ digits.length := Nat.mul_le_mul_right _ (by omega)
      _ = (value + 1) * 10 ^ (c :: digits).length := by
        rw [List.length_cons, Nat.pow_succ', Nat.mul_assoc]

theorem digitsValue_lt {digits : List Char} (all : ∀ c ∈ digits, c.isDigit = true) :
    digitsValue digits < 10 ^ digits.length := by
  have less := foldl_digits_lt digits all 0
  rwa [Nat.zero_add, Nat.one_mul] at less

/-- A number has as many digits as are read for it, and at most as many as are wanted. -/
theorem readNumber_lt {width value : Nat} {text rest : List Char}
    (read : readNumber width text = .ok (value, rest)) :
    value < 10 ^ (text.length - rest.length) ∧ text.length - rest.length ≤ width := by
  cases text with
  | nil => cases read
  | cons c text =>
    simp only [readNumber] at read
    split at read
    · obtain ⟨rfl, rfl⟩ := Prod.mk.inj (Except.ok.inj read)
      generalize number : ((c :: text).take width).takeWhile Char.isDigit = digits
      have start : digits <+: (c :: text).take width := number ▸ List.takeWhile_prefix _
      have short := start.length_le
      rw [List.length_take] at short
      have count :
          (c :: text).length - ((c :: text).drop digits.length).length = digits.length := by
        rw [List.length_drop]
        omega
      rw [count]
      refine ⟨digitsValue_lt fun d member => ?_, by omega⟩
      rw [← number] at member
      exact List.all_eq_true.1 List.all_takeWhile d member
    · cases read

/-- A fraction is less than a second. -/
theorem readFraction_lt {text rest : List Char} {nanos : Nat}
    (read : readFraction text = .ok (nanos, rest)) : nanos < 1000000000 := by
  unfold readFraction at read
  split at read
  · rename_i digits
    obtain ⟨⟨value, behind⟩, number, read⟩ := bind_eq_ok.1 read
    obtain ⟨rfl, -⟩ := Prod.mk.inj (Except.ok.inj read)
    obtain ⟨less, few⟩ := readNumber_lt number
    generalize digits.length - behind.length = count at less few
    calc value * 10 ^ (9 - count)
      _ < 10 ^ count * 10 ^ (9 - count) :=
        Nat.mul_lt_mul_of_pos_right less (Nat.pow_pos (by decide))
      _ = 10 ^ 9 := by rw [← Nat.pow_add, Nat.add_sub_cancel' few]
  · obtain ⟨rfl, -⟩ := Prod.mk.inj (Except.ok.inj read)
    decide

/-- The fraction and the offset are read as they are, whatever stands before them. -/
theorem readParts_spec {text : List Char} {parts : Parts} (read : readParts text = .ok parts) :
    parts.nanos < 1000000000 ∧ parts.offset % 60 = 0 := by
  obtain ⟨_, -, read⟩ := bind_eq_ok.1 read
  obtain ⟨_, -, read⟩ := bind_eq_ok.1 read
  obtain ⟨_, -, read⟩ := bind_eq_ok.1 read
  obtain ⟨_, -, read⟩ := bind_eq_ok.1 read
  obtain ⟨⟨day, separated⟩, -, read⟩ := bind_eq_ok.1 read
  dsimp only at read
  split at read
  · cases read
  · split at read
    · obtain ⟨_, -, read⟩ := bind_eq_ok.1 read
      obtain ⟨_, -, read⟩ := bind_eq_ok.1 read
      obtain ⟨_, -, read⟩ := bind_eq_ok.1 read
      obtain ⟨_, -, read⟩ := bind_eq_ok.1 read
      obtain ⟨_, -, read⟩ := bind_eq_ok.1 read
      obtain ⟨_, -, read⟩ := bind_eq_ok.1 read
      obtain ⟨⟨nanos, _⟩, fraction, read⟩ := bind_eq_ok.1 read
      obtain ⟨⟨offset, _⟩, zone, read⟩ := bind_eq_ok.1 read
      dsimp only at read
      split at read
      · obtain rfl := Except.ok.inj read
        exact ⟨readFraction_lt fraction, readOffset_minutes zone⟩
      · cases read
    · cases read

/-- Only the sixtieth second of a minute makes a leap second. -/
theorem Parts.regular_toInstant {parts : Parts} (minutes : parts.offset % 60 = 0)
    (small : parts.nanos < 1000000000) {t : Instant} (made : parts.toInstant = .ok t) :
    t.Regular := by
  intro leap
  unfold Parts.toInstant at made
  simp only at made
  split at made
  · cases made
  · split at made
    · cases made
    · split at made
      · rename_i there
        cases made
        obtain ⟨seconds, nanos⟩ := Instant.ofParts?_eq_some there
        by_cases sixtieth : parts.second = 60
        · rw [if_pos sixtieth] at seconds
          omega
        · rw [if_neg sixtieth] at nanos
          omega
      · cases made

theorem regular_of_read {text : List Char} {t : Instant} (read : Rfc3339.read text = .ok t) :
    t.Regular := by
  obtain ⟨parts, read, made⟩ := bind_eq_ok.1 read
  obtain ⟨small, minutes⟩ := readParts_spec read
  exact Parts.regular_toInstant minutes small made

/-- **An instant is read as it was written** exactly if it is regular. -/
theorem read_write_iff {t : Instant} : read (write t) = .ok t ↔ t.Regular := by
  refine ⟨regular_of_read, fun regular => ?_⟩
  rw [read, readParts_write]
  exact toInstant_partsOf regular

end Rfc3339

/-- What a text denotes is regular. -/
theorem Instant.regular_of_ofText {text : String} {t : Instant} (h : ofText text = .ok t) :
    t.Regular :=
  Rfc3339.regular_of_read h

/-- **The text of an instant denotes it** exactly if it is regular. -/
theorem Instant.ofText_toText_iff {t : Instant} : ofText t.toText = .ok t ↔ t.Regular := by
  rw [ofText, toText, String.toList_ofList]
  exact Rfc3339.read_write_iff

end PostStore
