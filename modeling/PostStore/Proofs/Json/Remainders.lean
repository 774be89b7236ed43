import PostStore.Proofs.Json.Strings
/-!
# What is left of a text is a text

Everything that the grammar describes ends with a byte below 128, and a text is cut there into two
texts.  So when the bytes are a text, the names and strings in them are texts, to the end.
-/

namespace PostStore.Json.Grammar

open Text

/-! ## White space and numbers -/

theorem Space.isText {t t' : Bytes} (space : Space t t') (text : IsText t) : IsText t' := by
  have small : ∀ b ∈ blanks, b < 128 := by simp [blanks]
  induction space with
  | none => exact text
  | blank blank _ ih => exact ih (text.tail (small _ blank))

theorem lt_of_isDigit {b : UInt8} (digit : isDigit b) : b < 128 := by
  unfold isDigit at digit
  rw [Bool.and_eq_true, decide_eq_true_eq, decide_eq_true_eq] at digit
  exact UInt8.lt_of_le_of_lt digit.2 (by decide)

theorem Digits.isText {t t' : Bytes} (digits : Digits t t') (text : IsText t) : IsText t' := by
  induction digits with
  | none => exact text
  | digit digit _ ih => exact ih (text.tail (lt_of_isDigit digit))

theorem Whole.isText {t t' : Bytes} (whole : Whole t t') (text : IsText t) : IsText t' := by
  cases whole with
  | zero => exact text.tail (by decide)
  | digits digit _ digits => exact digits.isText (text.tail (lt_of_isDigit digit))

theorem Fraction.isText {t t' : Bytes} (fraction : Fraction t t') (text : IsText t) :
    IsText t' := by
  cases fraction with
  | none => exact text
  | point digit digits =>
    exact digits.isText ((text.tail (by decide)).tail (lt_of_isDigit digit))

theorem Sign.isText {t t' : Bytes} (sign : Sign t t') (text : IsText t) : IsText t' := by
  cases sign with
  | none => exact text
  | plus => exact text.tail (by decide)
  | minus => exact text.tail (by decide)

theorem Exponent.isText {t t' : Bytes} (exponent : Exponent t t') (text : IsText t) :
    IsText t' := by
  cases exponent with
  | none => exact text
  | power letter sign digit digits =>
    have small : ∀ e : UInt8, e = 101 ∨ e = 69 → e < 128 := by
      rintro e (rfl | rfl) <;> decide
    exact digits.isText ((sign.isText (text.tail (small _ letter))).tail (lt_of_isDigit digit))

theorem Numeral.isText {t t' : Bytes} (numeral : Numeral t t') (text : IsText t) : IsText t' := by
  have unsigned : ∀ {t}, Unsigned t t' → IsText t → IsText t' := by
    rintro t ⟨whole, fraction, exponent⟩ text
    exact exponent.isText (fraction.isText (whole.isText text))
  cases numeral with
  | plain number => exact unsigned number text
  | minus number => exact unsigned number (text.tail (by decide))

/-! ## Values -/

theorem Space.isText_cons {b : UInt8} {t t' : Bytes} (space : Space t (b :: t')) (small : b < 128)
    (text : IsText t) : IsText t' :=
  (space.isText text).tail small

theorem opener_lt (frame : Frame) : opener frame < 128 := by
  cases frame <;> decide

theorem closer_lt (frame : Frame) : frame.closer < 128 := by
  cases frame <;> decide

/-- What is left behind a value in a text is a text. -/
theorem Derives.isText {string : Bytes → Bytes → Prop}
    (strings : ∀ {t t'}, string t t' → IsText t → IsText t') {rule : Rule} {t t' : Bytes}
    (derives : Derives string rule t t') (text : IsText t) : IsText t' := by
  induction derives with
  | null space =>
    have word := space.isText_cons (by decide) text
    exact ((word.tail (by decide)).tail (by decide)).tail (by decide)
  | true space =>
    have word := space.isText_cons (by decide) text
    exact ((word.tail (by decide)).tail (by decide)).tail (by decide)
  | false space =>
    have word := space.isText_cons (by decide) text
    exact (((word.tail (by decide)).tail (by decide)).tail (by decide)).tail (by decide)
  | number space numeral => exact numeral.isText (space.isText text)
  | text space holds => exact strings holds (space.isText_cons (by decide) text)
  | empty space inside =>
    exact inside.isText_cons (closer_lt _) (space.isText_cons (opener_lt _) text)
  | full space _ _ ihElement ihRest =>
    exact ihRest (ihElement (space.isText_cons (opener_lt _) text))
  | item _ ih => exact ih text
  | member quote holds colon _ ih =>
    have inside := quote.isText_cons (by decide) text
    exact ih (colon.isText_cons (by decide) (strings holds inside))
  | close space => exact space.isText_cons (closer_lt _) text
  | more comma _ _ ihElement ihRest =>
    exact ihRest (ihElement (comma.isText_cons (by decide) text))

theorem Proper.isText {t t' : Bytes} (proper : Proper t t') (text : IsText t) : IsText t' := by
  obtain ⟨content, quoted⟩ := proper
  exact (quoted.isText text).2

theorem TextAt.isText {s : String} {t t' : Bytes} (here : TextAt s t t') (text : IsText t) :
    IsText t' := by
  obtain ⟨t1, space, quoted⟩ := here
  exact (quoted.isText (space.isText_cons (by decide) text)).2

theorem NameAt.isText {first : Bool} {t t' : Bytes} (opens : NameAt first t t')
    (text : IsText t) : IsText t' := by
  cases opens with
  | first space => exact space.isText_cons (by decide) text
  | next comma space =>
    exact space.isText_cons (by decide) (comma.isText_cons (by decide) text)

/-- **The names of the members of an object in a text are texts.** -/
theorem Members.isText {behind : Bytes → Bytes → Bytes → Prop}
    (flows : ∀ {name t t'}, behind name t t' → IsText t → IsText t') {first : Bool}
    {found : List Bytes} {t t' : Bytes} (object : Members behind first found t t')
    (text : IsText t) : ∀ name ∈ found, IsText name := by
  induction object with
  | close => nofun
  | member opens quoted colon stands _ ih =>
    obtain ⟨name, rest⟩ := quoted.isText (opens.isText text)
    have others := ih (flows stands (colon.isText_cons (by decide) rest))
    intro n member
    rcases List.mem_cons.1 member with rfl | member
    · exact name
    · exact others n member

end PostStore.Json.Grammar
