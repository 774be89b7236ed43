import Mathlib.Tactic.SplitIfs
import PostStore.Proofs.Json.Strings
/-!
# White space, numbers, words and texts are read exactly

White space and digits are passed over as far as they go.  The grammar leaves open where they end,
so what it describes is passed over as it says only where nothing follows that would continue it:
numbers are compared with the grammar where something `Stops` them.  Words and strings end of
themselves.
-/

namespace PostStore.Json

open Grammar Text

/-! ## White space -/

theorem isSpace_iff {b : UInt8} : isSpace b = true ↔ b ∈ blanks := by
  unfold isSpace blanks
  simp only [Bool.or_eq_true, decide_eq_true_eq, List.mem_cons, List.not_mem_nil, or_false,
    or_assoc]

/-- What is passed over as white space is white space. -/
theorem space_skipSpace (t : Bytes) : Space t (skipSpace t) := by
  induction t with
  | nil => exact .none
  | cons b t ih =>
    by_cases space : isSpace b = true
    · rw [skipSpace, List.dropWhile_cons_of_pos space]
      exact .blank (isSpace_iff.1 space) ih
    · rw [skipSpace, List.dropWhile_cons_of_neg space]
      exact .none

/-- Behind white space the same is left as before it. -/
theorem Grammar.Space.skipSpace_eq {t t' : Bytes} (space : Space t t') :
    skipSpace t = skipSpace t' := by
  induction space with
  | none => rfl
  | blank blank _ ih =>
    rw [skipSpace, List.dropWhile_cons_of_pos (isSpace_iff.2 blank)]
    exact ih

/-- White space is passed over up to a byte that is none. -/
theorem Grammar.Space.skipSpace_eq_cons {b : UInt8} {t t' : Bytes} (space : Space t (b :: t'))
    (other : isSpace b = false) : skipSpace t = b :: t' := by
  rw [space.skipSpace_eq, skipSpace_of_not_isSpace other]

theorem space_of_skipSpace {t t' : Bytes} (eq : skipSpace t = t') : Space t t' := by
  rw [← eq]
  exact space_skipSpace t

/-! ## Digits -/

/-- What is passed over as digits is digits. -/
theorem digits_dropDigits (t : Bytes) : Digits t (t.dropWhile isDigit) := by
  induction t with
  | nil => exact .none
  | cons b t ih =>
    by_cases digit : isDigit b = true
    · rw [List.dropWhile_cons_of_pos digit]
      exact .digit digit ih
    · rw [List.dropWhile_cons_of_neg digit]
      exact .none

/-- A property of the first byte, if there is one. -/
def Heads (p : UInt8 → Prop) (t : Bytes) : Prop := ∀ b t', t = b :: t' → p b

/-- Digits are passed over up to a byte that is none. -/
theorem Grammar.Digits.dropDigits_eq {t t' : Bytes} (digits : Digits t t')
    (ends : Heads (fun b => ¬ isDigit b) t') : t.dropWhile isDigit = t' := by
  induction digits with
  | @none t =>
    cases t with
    | nil => rfl
    | cons b t => exact List.dropWhile_cons_of_neg (ends b t rfl)
  | digit digit _ ih =>
    rw [List.dropWhile_cons_of_pos digit]
    exact ih ends

/-! ## Numbers -/

/-- Nothing follows that would continue a number. -/
def Stops (t : Bytes) : Prop :=
  Heads (fun b => ¬ isDigit b ∧ b ≠ 46 ∧ ¬ (b = 101 ∨ b = 69)) t

theorem dropSign_eq {t t' : Bytes} {b : UInt8} (sign : Sign t (b :: t')) (digit : isDigit b) :
    dropSign t = b :: t' := by
  cases sign with
  | none =>
    unfold dropSign
    split
    · rename_i eq
      cases eq
      exact absurd digit (by decide)
    · rename_i eq
      cases eq
      exact absurd digit (by decide)
    · rfl
  | plus => rfl
  | minus => rfl

theorem sign_dropSign (t : Bytes) : Sign t (dropSign t) := by
  unfold dropSign
  split
  · exact .plus
  · exact .minus
  · exact .none

theorem exponent_of_skipAnyExponent {t t' : Bytes} (skip : skipAnyExponent t = .ok t') :
    Exponent t t' := by
  unfold skipAnyExponent at skip
  split at skip
  · cases skip
    exact .none
  · rename_i e rest
    split_ifs at skip with letter
    · unfold skipExponent at skip
      split at skip
      · cases skip
      · rename_i b digits eq
        split_ifs at skip with digit
        cases skip
        have sign := sign_dropSign rest
        rw [eq] at sign
        exact .power letter sign digit (digits_dropDigits digits)
    · cases skip
      exact .none

theorem fraction_of_skipFraction {t t' : Bytes} (skip : skipFraction t = .ok t') :
    ∃ t1, Fraction t t1 ∧ Exponent t1 t' := by
  unfold skipFraction at skip
  split at skip
  · cases skip
    exact ⟨[], .none, .none⟩
  · rename_i b rest
    split_ifs at skip with point
    · subst point
      split at skip
      · cases skip
      · rename_i d digits
        split_ifs at skip with digit
        exact ⟨_, .point digit (digits_dropDigits digits), exponent_of_skipAnyExponent skip⟩
    · exact ⟨_, .none, exponent_of_skipAnyExponent skip⟩

/-- What is passed over as a number is one. -/
theorem unsigned_of_skipNumber {t t' : Bytes} (skip : skipNumber t = .ok t') : Unsigned t t' := by
  unfold skipNumber at skip
  split at skip
  · cases skip
  · rename_i b rest
    split_ifs at skip with zero digit
    · subst zero
      split at skip
      · split_ifs at skip
        obtain ⟨t1, fraction, exponent⟩ := fraction_of_skipFraction skip
        exact .mk .zero fraction exponent
      · cases skip
        exact .mk .zero .none .none
    · obtain ⟨t1, fraction, exponent⟩ := fraction_of_skipFraction skip
      exact .mk (.digits digit zero (digits_dropDigits rest)) fraction exponent

/-- What starts an exponent continues neither digits nor a fraction. -/
theorem Grammar.Exponent.heads {t t' : Bytes} (exponent : Exponent t t') (stops : Stops t') :
    Heads (fun b => ¬ isDigit b ∧ b ≠ 46) t := by
  intro b rest eq
  cases exponent with
  | none => exact ⟨(stops b rest eq).1, (stops b rest eq).2.1⟩
  | power letter =>
    cases eq
    rcases letter with rfl | rfl <;> decide

theorem Grammar.Fraction.heads {t t' : Bytes} (fraction : Fraction t t')
    (ends : Heads (fun b => ¬ isDigit b ∧ b ≠ 46) t') : Heads (fun b => ¬ isDigit b) t := by
  intro b rest eq
  cases fraction with
  | none => exact (ends b rest eq).1
  | point =>
    cases eq
    decide

theorem skipAnyExponent_eq_ok {t t' : Bytes} (exponent : Exponent t t') (stops : Stops t') :
    skipAnyExponent t = .ok t' := by
  cases exponent with
  | none =>
    cases t with
    | nil => rfl
    | cons b t => rw [skipAnyExponent, if_neg (stops b t rfl).2.2]
  | power letter sign digit digits =>
    have ends := digits.dropDigits_eq fun b rest eq => (stops b rest eq).1
    rw [skipAnyExponent, if_pos letter, skipExponent, dropSign_eq sign digit]
    simp only [if_pos digit, ends]

theorem skipFraction_eq_ok {t t1 t' : Bytes} (fraction : Fraction t t1) (exponent : Exponent t1 t')
    (stops : Stops t') : skipFraction t = .ok t' := by
  have heads := exponent.heads stops
  have power := skipAnyExponent_eq_ok exponent stops
  cases fraction with
  | none =>
    cases t with
    | nil => exact power
    | cons b t =>
      unfold skipFraction
      simp only [if_neg (heads b t rfl).2, power]
  | point digit digits =>
    have ends := digits.dropDigits_eq fun b rest eq => (heads b rest eq).1
    simp only [skipFraction, if_true, if_pos digit, ends, power]

/-- **A number is passed over where it stops.** -/
theorem skipNumber_eq_ok {t t' : Bytes} (number : Unsigned t t') (stops : Stops t') :
    skipNumber t = .ok t' := by
  obtain @⟨t1, t2, _, whole, fraction, exponent⟩ := number
  have heads := fraction.heads (exponent.heads stops)
  have rest := skipFraction_eq_ok fraction exponent stops
  cases whole with
  | zero =>
    cases t1 with
    | nil =>
      rw [← rest]
      rfl
    | cons b t1 => simp only [skipNumber, if_true, if_neg (heads b t1 rfl), rest]
  | digits digit zero digits =>
    unfold skipNumber
    simp only [if_neg zero, if_pos digit, digits.dropDigits_eq heads, rest]

/-! ## Words -/

theorem readWord_eq_ok {word t t' : Bytes} : readWord word t = .ok t' ↔ t = word ++ t' := by
  induction word generalizing t with
  | nil =>
    rw [readWord, List.nil_append]
    constructor
    · intro read
      cases read
      rfl
    · rintro rfl
      rfl
  | cons w word ih =>
    constructor
    · intro read
      cases t with
      | nil => cases read
      | cons b t =>
        rw [readWord] at read
        split_ifs at read with same
        rw [same, ih.1 read]
        rfl
    · rintro rfl
      rw [List.cons_append, readWord, if_pos rfl]
      exact ih.2 rfl

/-! ## Texts and instants -/

/-- A string that has to be understood is read exactly. -/
theorem readQuoted_eq_ok {α : Type} {expected : String} {parse : String → Except Reason α}
    {value : α} {t t' : Bytes} :
    readQuoted expected parse t = .ok (value, t') ↔
      ∃ text, TextAt text t t' ∧ parse text = .ok value := by
  constructor
  · intro read
    unfold readQuoted at read
    split at read
    · cases read
    · rename_i eq
      split_ifs at read with quote
      rw [quote] at eq
      split at read
      · cases read
      · rename_i text _ string
        split at read
        · rename_i known
          cases read
          exact ⟨text, ⟨_, space_of_skipSpace eq, readString_eq_ok.1 string⟩, known⟩
        · cases read
  · rintro ⟨text, ⟨t1, space, quoted⟩, known⟩
    have here := space.skipSpace_eq_cons (by decide)
    simp only [readQuoted, here, if_true, readString_eq_ok.2 quoted, known]

theorem readText_eq_ok {text : String} {t t' : Bytes} :
    readText t = .ok (text, t') ↔ TextAt text t t' := by
  unfold readText
  rw [readQuoted_eq_ok]
  constructor
  · rintro ⟨_, here, same⟩
    cases same
    exact here
  · intro here
    exact ⟨text, here, rfl⟩

theorem readInstant_eq_ok {time : Instant} {t t' : Bytes} :
    readInstant t = .ok (time, t') ↔ InstantAt time t t' := by
  unfold readInstant
  rw [readQuoted_eq_ok]
  constructor
  · rintro ⟨text, here, understood⟩
    split at understood
    · rename_i known
      cases understood
      exact ⟨text, here, known⟩
    · cases understood
  · rintro ⟨text, here, known⟩
    refine ⟨text, here, ?_⟩
    rw [known]

end PostStore.Json
