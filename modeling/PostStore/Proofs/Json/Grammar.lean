import PostStore.Json.Members
/-!
# The grammar of JSON texts

What a JSON text is, whatever reads it.  A rule relates some bytes to what may be left of them once
what the rule describes has been taken off their front, so `Space t t'` says that `t` is white space
followed by `t'`.  Rules leave open how much they take: that a number ends where no digit follows is
a matter of what may stand behind it.

The rules for values are given for any rule for strings.  There are two of those.  In a `Proper`
string every `u` escape denotes a character; a `Passed` string has the form of a string, but its
escapes may denote halves of surrogate pairs and its bytes need not be text.
-/

namespace PostStore.Json.Grammar

/-! ## White space -/

/-- The bytes that are white space: space, line feed, tab and carriage return. -/
def blanks : Bytes := [32, 10, 9, 13]

/-- White space, as much as there is or less. -/
inductive Space : Bytes → Bytes → Prop
  | none {t} : Space t t
  | blank {b t t'} : b ∈ blanks → Space t t' → Space (b :: t) t'

/-! ## Strings -/

/-- A hexadecimal digit and its value. -/
inductive HexDigit : UInt8 → Nat → Prop
  | decimal {n} : n < 10 → HexDigit (UInt8.ofNat (48 + n)) n
  | lower {n} : n < 6 → HexDigit (UInt8.ofNat (97 + n)) (10 + n)
  | upper {n} : n < 6 → HexDigit (UInt8.ofNat (65 + n)) (10 + n)

/-- Four hexadecimal digits and the number that they denote. -/
inductive Hex4 : Bytes → Nat → Bytes → Prop
  | digits {a b c d i j k l t} : HexDigit a i → HexDigit b j → HexDigit c k → HexDigit d l →
      Hex4 (a :: b :: c :: d :: t) (((i * 16 + j) * 16 + k) * 16 + l) t

/-- The letters that stand for a byte after a backslash: quote, backslash and slash for themselves,
and letters for backspace, form feed, line feed, carriage return and tab. -/
def letters : List (UInt8 × UInt8) :=
  [(34, 34), (92, 92), (47, 47), (98, 8), (102, 12), (110, 10), (114, 13), (116, 9)]

/-- What may follow a backslash, with the bytes of the character that it denotes. -/
inductive Escape : Bytes → Bytes → Bytes → Prop
  | letter {a b t} : (a, b) ∈ letters → Escape (a :: t) [b] t
  | character {code t t'} : Hex4 t code t' → ¬ (0xd800 ≤ code ∧ code ≤ 0xdfff) →
      Escape (117 :: t) (String.utf8EncodeChar (Char.ofNat code)) t'
  | pair {high low t t1 t'} : Hex4 t high (92 :: 117 :: t1) → Hex4 t1 low t' →
      0xd800 ≤ high ∧ high ≤ 0xdbff → 0xdc00 ≤ low ∧ low ≤ 0xdfff →
      Escape (117 :: t) (String.utf8EncodeChar
        (Char.ofNat ((high - 0xd800) * 0x400 + (low - 0xdc00) + 0x10000))) t'

/-- The rest of a string after its opening quote, with the bytes that it stands for. -/
inductive Quoted : Bytes → Bytes → Bytes → Prop
  | close {t} : Quoted (34 :: t) [] t
  | plain {b t content t'} : ¬ b < 32 → b ≠ 34 → b ≠ 92 → Quoted t content t' →
      Quoted (b :: t) (b :: content) t'
  | escape {t piece t1 content t'} : Escape t piece t1 → Quoted t1 content t' →
      Quoted (92 :: t) (piece ++ content) t'

/-- The rest of a string that stands for something. -/
def Proper (t t' : Bytes) : Prop := ∃ content, Quoted t content t'

/-- What has the form of an escape after its backslash, whether or not it denotes a character. -/
inductive Escaped : Bytes → Bytes → Prop
  | letter {a b t} : (a, b) ∈ letters → Escaped (a :: t) t
  | code {n t t'} : Hex4 t n t' → Escaped (117 :: t) t'

/-- The rest of a string, whether or not it stands for something. -/
inductive Passed : Bytes → Bytes → Prop
  | close {t} : Passed (34 :: t) t
  | plain {b t t'} : ¬ b < 32 → b ≠ 34 → b ≠ 92 → Passed t t' → Passed (b :: t) t'
  | escape {t t1 t'} : Escaped t t1 → Passed t1 t' → Passed (92 :: t) t'

/-! ## Numbers -/

/-- Decimal digits, as many as there are or fewer. -/
inductive Digits : Bytes → Bytes → Prop
  | none {t} : Digits t t
  | digit {b t t'} : isDigit b → Digits t t' → Digits (b :: t) t'

/-- A whole number without a sign; only zero starts with the digit zero. -/
inductive Whole : Bytes → Bytes → Prop
  | zero {t} : Whole (48 :: t) t
  | digits {b t t'} : isDigit b → b ≠ 48 → Digits t t' → Whole (b :: t) t'

/-- A point with digits after it, or nothing. -/
inductive Fraction : Bytes → Bytes → Prop
  | none {t} : Fraction t t
  | point {b t t'} : isDigit b → Digits t t' → Fraction (46 :: b :: t) t'

/-- A plus sign, a minus sign or nothing. -/
inductive Sign : Bytes → Bytes → Prop
  | none {t} : Sign t t
  | plus {t} : Sign (43 :: t) t
  | minus {t} : Sign (45 :: t) t

/-- An exponent, or nothing. -/
inductive Exponent : Bytes → Bytes → Prop
  | none {t} : Exponent t t
  | power {e b t t1 t'} : e = 101 ∨ e = 69 → Sign t (b :: t1) → isDigit b → Digits t1 t' →
      Exponent (e :: t) t'

/-- A number without a sign. -/
inductive Unsigned : Bytes → Bytes → Prop
  | mk {t t1 t2 t'} : Whole t t1 → Fraction t1 t2 → Exponent t2 t' → Unsigned t t'

/-- A number. -/
inductive Numeral : Bytes → Bytes → Prop
  | plain {t t'} : Unsigned t t' → Numeral t t'
  | minus {t t'} : Unsigned t t' → Numeral (45 :: t) t'

/-! ## Values -/

/-- The byte that opens a frame. -/
def opener : Frame → UInt8
  | .list => 91
  | .object => 123

/-- What there are rules for: values, what a frame holds, and the rest of a frame behind that. -/
inductive Rule where
  | value
  | element (frame : Frame)
  | rest (frame : Frame)

/-- The rules for values and their parts, each with white space before it. -/
inductive Derives (string : Bytes → Bytes → Prop) : Rule → Bytes → Bytes → Prop
  | null {t t'} : Space t (110 :: 117 :: 108 :: 108 :: t') → Derives string .value t t'
  | true {t t'} : Space t (116 :: 114 :: 117 :: 101 :: t') → Derives string .value t t'
  | false {t t'} : Space t (102 :: 97 :: 108 :: 115 :: 101 :: t') → Derives string .value t t'
  | number {t t1 t'} : Space t t1 → Numeral t1 t' → Derives string .value t t'
  | text {t t1 t'} : Space t (34 :: t1) → string t1 t' → Derives string .value t t'
  | empty {frame : Frame} {t t1 t'} : Space t (opener frame :: t1) →
      Space t1 (frame.closer :: t') → Derives string .value t t'
  | full {frame t t1 t2 t'} : Space t (opener frame :: t1) →
      Derives string (.element frame) t1 t2 → Derives string (.rest frame) t2 t' →
      Derives string .value t t'
  | item {t t'} : Derives string .value t t' → Derives string (.element .list) t t'
  | member {t t1 t2 t3 t'} : Space t (34 :: t1) → string t1 t2 → Space t2 (58 :: t3) →
      Derives string .value t3 t' → Derives string (.element .object) t t'
  | close {frame t t'} : Space t (frame.closer :: t') → Derives string (.rest frame) t t'
  | more {frame t t1 t2 t'} : Space t (44 :: t1) → Derives string (.element frame) t1 t2 →
      Derives string (.rest frame) t2 t' → Derives string (.rest frame) t t'

/-! ## Objects and lists of which something is known -/

/-- White space, after the first member a comma, and an opening quote. -/
inductive NameAt : (first : Bool) → Bytes → Bytes → Prop
  | first {t t'} : Space t (34 :: t') → NameAt true t t'
  | next {t t1 t'} : Space t (44 :: t1) → Space t1 (34 :: t') → NameAt false t t'

/-- The rest of an object with the names of its members, given as the bytes that they stand for;
`behind` says what may stand behind the colon of each. -/
inductive Members (behind : Bytes → Bytes → Bytes → Prop) :
    (first : Bool) → List Bytes → Bytes → Bytes → Prop
  | close {first t t'} : Space t (125 :: t') → Members behind first [] t t'
  | member {first name names t t1 t2 t3 t4 t'} : NameAt first t t1 → Quoted t1 name t2 →
      Space t2 (58 :: t3) → behind name t3 t4 → Members behind false names t4 t' →
      Members behind first (name :: names) t t'

/-- The rest of a list whose elements are known one by one. -/
inductive Listed : (first : Bool) → List (Bytes → Bytes → Prop) → Bytes → Bytes → Prop
  | close {first t t'} : Space t (93 :: t') → Listed first [] t t'
  | first {element elements t t1 t'} : element t t1 → Listed false elements t1 t' →
      Listed true (element :: elements) t t'
  | next {element elements t t1 t2 t'} : Space t (44 :: t1) → element t1 t2 →
      Listed false elements t2 t' → Listed false (element :: elements) t t'

/-- A string that stands for the text. -/
def TextAt (text : String) (t t' : Bytes) : Prop :=
  ∃ t1, Space t (34 :: t1) ∧ Quoted t1 (Text.utf8 text) t'

/-- A string that stands for a text that denotes the instant. -/
def InstantAt (time : Instant) (t t' : Bytes) : Prop :=
  ∃ text, TextAt text t t' ∧ Instant.ofText text = .ok time

/-! ## First facts -/

theorem Space.trans {t t1 t' : Bytes} (first : Space t t1) (second : Space t1 t') :
    Space t t' := by
  induction first with
  | none => exact second
  | blank space _ ih => exact .blank space (ih second)

theorem Space.length_le {t t' : Bytes} (space : Space t t') : t'.length ≤ t.length := by
  induction space with
  | none => exact Nat.le_refl _
  | blank _ _ ih => exact Nat.le_succ_of_le ih

theorem NameAt.length_lt {first : Bool} {t t' : Bytes} (opens : NameAt first t t') :
    t'.length < t.length := by
  cases opens with
  | first space => exact space.length_le
  | next comma space => exact Nat.lt_of_lt_of_le (Nat.lt_succ_of_lt space.length_le) comma.length_le

/-- White space may stand before whatever starts with white space. -/
theorem Derives.spaced {string : Bytes → Bytes → Prop} {rule : Rule} {t t1 t' : Bytes}
    (before : Space t t1) (derives : Derives string rule t1 t') : Derives string rule t t' := by
  induction derives with
  | null space => exact .null (before.trans space)
  | true space => exact .true (before.trans space)
  | false space => exact .false (before.trans space)
  | number space numeral => exact .number (before.trans space) numeral
  | text space holds => exact .text (before.trans space) holds
  | empty space inside => exact .empty (before.trans space) inside
  | full space element rest => exact .full (before.trans space) element rest
  | item _ ih => exact .item (ih before)
  | member space holds colon value => exact .member (before.trans space) holds colon value
  | close space => exact .close (before.trans space)
  | more space element rest => exact .more (before.trans space) element rest

/-- With more strings there are more values. -/
theorem Derives.mono {string string' : Bytes → Bytes → Prop}
    (weaker : ∀ {t t'}, string t t' → string' t t') {rule : Rule} {t t' : Bytes}
    (derives : Derives string rule t t') : Derives string' rule t t' := by
  induction derives with
  | null space => exact .null space
  | true space => exact .true space
  | false space => exact .false space
  | number space numeral => exact .number space numeral
  | text space holds => exact .text space (weaker holds)
  | empty space inside => exact .empty space inside
  | full space _ _ element rest => exact .full space element rest
  | item _ ih => exact .item ih
  | member space holds colon _ value => exact .member space (weaker holds) colon value
  | close space => exact .close space
  | more space _ _ element rest => exact .more space element rest

/-- A string that stands for something has the form of a string. -/
theorem Quoted.passed {t content t' : Bytes} (quoted : Quoted t content t') : Passed t t' := by
  induction quoted with
  | close => exact .close
  | plain control quote backslash _ ih => exact .plain control quote backslash ih
  | escape escape _ ih =>
    cases escape with
    | letter known => exact .escape (.letter known) ih
    | character hex _ => exact .escape (.code hex) ih
    | pair first second _ _ => exact .escape (.code first) (.escape (.code second) ih)

theorem Proper.passed {t t' : Bytes} (proper : Proper t t') : Passed t t' := by
  obtain ⟨content, quoted⟩ := proper
  exact quoted.passed

end PostStore.Json.Grammar
