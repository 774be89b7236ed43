import Mathlib.Algebra.Group.Nat.Defs
import PostStore.Calendar.Duration
/-!
# Arithmetic on machine words

Sums and products of words that tell when they do not fit, powers by repeated squaring, and lengths
of time kept as seconds and nanoseconds in words of their own.  Each comes to what the same
arithmetic comes to on numbers, as far as that fits, and otherwise tells so.
-/

namespace PostStore.Words

variable {w : Nat}

/-! ## Numbers that fit -/

/-- A number, if it fits into a word. -/
def fit (w n : Nat) : Option Nat := if n < 2 ^ w then some n else none

theorem fit_of_le {n : Nat} (large : 2 ^ w ≤ n) : fit w n = none := if_neg (Nat.not_lt.2 large)

theorem eq_of_fit {m n : Nat} (here : fit w n = some m) : m = n := by
  unfold fit at here
  split at here
  · exact (Option.some.inj here).symm
  · exact absurd here (Option.some_ne_none m).symm

section Fit

variable {α : Type} {result : Option α} {view : α → Nat} {n : Nat}

theorem exists_of_fit (same : result.map view = fit w n) (small : n < 2 ^ w) :
    ∃ value, result = some value ∧ view value = n := by
  rw [fit, if_pos small] at same
  exact Option.map_eq_some_iff.1 same

theorem eq_none_of_fit (same : result.map view = fit w n) (large : 2 ^ w ≤ n) : result = none := by
  rw [fit_of_le large] at same
  exact Option.map_eq_none_iff.1 same

end Fit

/-! ## Sums and products -/

/-- The sum, unless it does not fit. -/
def plus? (a b : BitVec w) : Option (BitVec w) := if a.uaddOverflow b then none else some (a + b)

/-- The product, unless it does not fit. -/
def times? (a b : BitVec w) : Option (BitVec w) := if a.umulOverflow b then none else some (a * b)

theorem toNat_plus? (a b : BitVec w) :
    (plus? a b).map BitVec.toNat = fit w (a.toNat + b.toNat) := by
  unfold plus? fit
  by_cases small : a.toNat + b.toNat < 2 ^ w
  · simp [BitVec.uaddOverflow, small, Nat.mod_eq_of_lt small]
  · simp [BitVec.uaddOverflow, small]

theorem toNat_times? (a b : BitVec w) :
    (times? a b).map BitVec.toNat = fit w (a.toNat * b.toNat) := by
  unfold times? fit
  by_cases small : a.toNat * b.toNat < 2 ^ w
  · simp [BitVec.umulOverflow, small, Nat.mod_eq_of_lt small]
  · simp [BitVec.umulOverflow, small]

theorem toNat_of_plus? {a b sum : BitVec w} (here : plus? a b = some sum) :
    sum.toNat = a.toNat + b.toNat := by
  have same := toNat_plus? a b
  rw [here, Option.map_some] at same
  exact eq_of_fit same.symm

theorem toNat_times_plus? (a b c : BitVec w) :
    ((times? a b).bind (plus? · c)).map BitVec.toNat = fit w (a.toNat * b.toNat + c.toNat) := by
  by_cases small : a.toNat * b.toNat < 2 ^ w
  · obtain ⟨product, here, value⟩ := exists_of_fit (toNat_times? a b) small
    rw [here, Option.bind_some, toNat_plus?, value]
  · have large := Nat.not_lt.1 small
    rw [eq_none_of_fit (toNat_times? a b) large, fit_of_le (Nat.le_add_right_of_le large)]
    rfl

/-! ## Powers -/

/-- The product of a word with a power, by repeated squaring, unless a product on the way does not
fit.  After the last digit of the exponent nothing is squared any more. -/
def powFrom? (acc base : BitVec w) (exponent : Nat) : Option (BitVec w) :=
  if exponent = 0 then some acc
  else
    (if exponent % 2 = 1 then times? acc base else some acc).bind fun acc =>
      if exponent = 1 then some acc
      else (times? base base).bind fun base => powFrom? acc base (exponent / 2)
termination_by exponent

/-- A power, unless it does not fit. -/
def pow? (base : BitVec w) (exponent : Nat) : Option (BitVec w) := powFrom? 1 base exponent

theorem pow_halves (base exponent : Nat) :
    (base * base) ^ (exponent / 2) * base ^ (exponent % 2) = base ^ exponent := by
  rw [← Nat.pow_two, ← Nat.pow_mul, ← Nat.pow_add, Nat.div_add_mod]

/-- The first step of squaring and multiplying: the last digit of the exponent is used up. -/
theorem toNat_digit (acc base : BitVec w) (exponent : Nat) :
    (if exponent % 2 = 1 then times? acc base else some acc).map BitVec.toNat =
      fit w (acc.toNat * base.toNat ^ (exponent % 2)) := by
  by_cases odd : exponent % 2 = 1
  · rw [if_pos odd, toNat_times?, odd, Nat.pow_one]
  · obtain even : exponent % 2 = 0 := by omega
    rw [if_neg odd, even, Nat.pow_zero, Nat.mul_one, fit, if_pos acc.isLt]
    rfl

/-- What is left is zero only if the base is. -/
theorem eq_zero_of_digit {acc base exponent : Nat} (zero : acc = 0 → base = 0)
    (nothing : acc * base ^ (exponent % 2) = 0) : base = 0 := by
  rcases Nat.mul_eq_zero.1 nothing with none | none
  · exact zero none
  · exact Nat.pow_eq_zero.1 none |>.1

/-- No product on the way passes the bound unless the whole does, since every factor is used. -/
theorem toNat_powFrom? (exponent : Nat) : ∀ acc base : BitVec w,
    (acc.toNat = 0 → base.toNat = 0) →
      (powFrom? acc base exponent).map BitVec.toNat =
        fit w (acc.toNat * base.toNat ^ exponent) := by
  induction exponent using Nat.strongRecOn with
  | ind exponent ih =>
    intro acc base zero
    have whole : acc.toNat * base.toNat ^ exponent =
        acc.toNat * base.toNat ^ (exponent % 2) * (base.toNat * base.toNat) ^ (exponent / 2) := by
      rw [← pow_halves base.toNat exponent, Nat.mul_assoc, Nat.mul_comm (base.toNat ^ _)]
    rw [powFrom?]
    by_cases ended : exponent = 0
    · rw [if_pos ended, ended, Nat.pow_zero, Nat.mul_one, fit, if_pos acc.isLt]
      rfl
    rw [if_neg ended, whole]
    by_cases small : acc.toNat * base.toNat ^ (exponent % 2) < 2 ^ w
    · obtain ⟨acc', here, value⟩ := exists_of_fit (toNat_digit acc base exponent) small
      rw [here, Option.bind_some, ← value]
      by_cases last : exponent = 1
      · rw [if_pos last, last, Nat.pow_zero, Nat.mul_one, fit, if_pos acc'.isLt]
        rfl
      rw [if_neg last]
      by_cases fits : base.toNat * base.toNat < 2 ^ w
      · obtain ⟨base', squared, square⟩ := exists_of_fit (toNat_times? base base) fits
        rw [squared, Option.bind_some, ← square]
        refine ih _ (Nat.div_lt_self (Nat.pos_of_ne_zero ended) Nat.one_lt_two) acc' base' ?_
        intro nothing
        rw [square, eq_zero_of_digit zero (value.symm.trans nothing)]
      · -- the square does not fit, and at least one is still to be multiplied with
        rw [eq_none_of_fit (toNat_times? base base) (Nat.not_lt.1 fits)]
        have factor : acc'.toNat ≠ 0 := by
          intro nothing
          rw [eq_zero_of_digit zero (value.symm.trans nothing)] at fits
          exact fits (Nat.two_pow_pos w)
        have most : base.toNat * base.toNat ≤ (base.toNat * base.toNat) ^ (exponent / 2) :=
          Nat.le_self_pow (by omega) _
        have whole : base.toNat * base.toNat ≤
            acc'.toNat * (base.toNat * base.toNat) ^ (exponent / 2) :=
          Nat.le_trans most (Nat.le_mul_of_pos_left _ (Nat.pos_of_ne_zero factor))
        rw [fit_of_le (Nat.le_trans (Nat.not_lt.1 fits) whole)]
        rfl
    · -- the first factor does not fit already, and nothing makes it smaller again
      rw [eq_none_of_fit (toNat_digit acc base exponent) (Nat.not_lt.1 small)]
      have positive : 0 < base.toNat := by
        refine Nat.pos_of_ne_zero fun nothing => small ?_
        have one : 0 ^ (exponent % 2) ≤ 1 ^ (exponent % 2) :=
          Nat.pow_le_pow_left (Nat.zero_le 1) _
        calc acc.toNat * base.toNat ^ (exponent % 2)
          _ = acc.toNat * 0 ^ (exponent % 2) := by rw [nothing]
          _ ≤ acc.toNat * 1 ^ (exponent % 2) := Nat.mul_le_mul_left _ one
          _ = acc.toNat := by rw [Nat.one_pow, Nat.mul_one]
          _ < 2 ^ w := acc.isLt
      have rest : 0 < (base.toNat * base.toNat) ^ (exponent / 2) :=
        Nat.pow_pos (Nat.mul_pos positive positive)
      rw [fit_of_le (Nat.le_trans (Nat.not_lt.1 small) (Nat.le_mul_of_pos_right _ rest))]
      rfl

/-- **A power by repeated squaring is the power, and told not to fit exactly when it does not.** -/
theorem toNat_pow? (some : 0 < w) (base : BitVec w) (exponent : Nat) :
    (pow? base exponent).map BitVec.toNat = fit w (base.toNat ^ exponent) := by
  have one : (1 : BitVec w).toNat = 1 := BitVec.toNat_one some
  rw [pow?, toNat_powFrom? exponent 1 base (by rw [one]; exact fun no => absurd no Nat.one_ne_zero),
    one, Nat.one_mul]

/-! ## Lengths of time -/

/-- A length of time in words: seconds, and the nanoseconds of a further one. -/
structure Span where
  seconds : BitVec 64
  nanos : BitVec 32
  begun : nanos.toNat < 1000000000
  deriving DecidableEq

namespace Span

/-- The length in nanoseconds. -/
def total (d : Span) : Nat := d.seconds.toNat * 1000000000 + d.nanos.toNat

theorem total_le (d : Span) : d.total ≤ Duration.longest := by
  have seconds := d.seconds.isLt
  have begun := d.begun
  unfold total Duration.longest
  omega

/-- The duration that the words stand for. -/
def duration (d : Span) : Duration := ⟨d.total, d.total_le⟩

theorem duration_eq {d : Span} {n : Nat} (same : d.total = min n Duration.longest) :
    d.duration = .ofNanos n := by
  unfold duration Duration.ofNanos
  congr

/-- The longest length. -/
def longest : Span := ⟨BitVec.allOnes 64, 999999999, by decide⟩

theorem total_longest : longest.total = Duration.longest := by decide

/-- Seconds, and what is left of so many nanoseconds when whole seconds are taken away. -/
def carried (seconds nanos : BitVec 64) : Span where
  seconds
  nanos := (nanos % 1000000000).setWidth 32
  begun := by
    rw [BitVec.toNat_setWidth, BitVec.toNat_umod]
    exact Nat.lt_of_le_of_lt (Nat.mod_le _ _) (Nat.mod_lt _ (by decide))

/-- So many times a length, or the longest.  The nanoseconds are multiplied first and tell how many
seconds they carry; nothing comes of it if their product does not fit. -/
def scale (d : Span) (factor : BitVec 32) : Option Span :=
  (times? (d.nanos.setWidth 64) (factor.setWidth 64)).map fun nanos =>
    (((times? d.seconds (factor.setWidth 64)).bind (plus? · (nanos / 1000000000))).map
      (carried · nanos)).getD longest

theorem total_carried (seconds nanos : BitVec 64) :
    (carried seconds nanos).total =
      seconds.toNat * 1000000000 + nanos.toNat % 1000000000 := by
  have begun : nanos.toNat % 1000000000 < 1000000000 := Nat.mod_lt _ (by decide)
  have same : (carried seconds nanos).nanos.toNat = nanos.toNat % 1000000000 := by
    rw [carried, BitVec.toNat_setWidth, BitVec.toNat_umod]
    exact Nat.mod_eq_of_lt (Nat.lt_trans begun (by decide))
  rw [total, same]
  rfl

/-- The product of the nanoseconds fits into 64 digits. -/
theorem exists_nanos (d : Span) (factor : BitVec 32) :
    ∃ nanos, times? (d.nanos.setWidth 64) (factor.setWidth 64) = some nanos ∧
      nanos.toNat = d.nanos.toNat * factor.toNat := by
  have wide : ∀ n : BitVec 32, (n.setWidth 64).toNat = n.toNat := fun n => by
    rw [BitVec.toNat_setWidth, Nat.mod_eq_of_lt (Nat.lt_trans n.isLt (by decide))]
  refine exists_of_fit ((toNat_times? _ _).trans (by rw [wide, wide])) ?_
  have bound : d.nanos.toNat * factor.toNat ≤ 1000000000 * 2 ^ 32 :=
    Nat.mul_le_mul (Nat.le_of_lt d.begun) (Nat.le_of_lt factor.isLt)
  exact Nat.lt_of_le_of_lt bound (by decide)

/-- The shorter of two lengths, the seconds compared first. -/
def shorter (a b : Span) : Span :=
  if b.seconds < a.seconds ∨ b.seconds = a.seconds ∧ b.nanos < a.nanos then b else a

/-- **A length multiplied in words is the duration multiplied.** -/
theorem exists_scale (d : Span) (factor : BitVec 32) :
    ∃ e, d.scale factor = some e ∧ e.duration = d.duration.scale factor.toNat := by
  obtain ⟨nanos, product, value⟩ := exists_nanos d factor
  refine ⟨_, by rw [scale, product, Option.map_some], ?_⟩
  have wide : (factor.setWidth 64).toNat = factor.toNat := by
    rw [BitVec.toNat_setWidth, Nat.mod_eq_of_lt (Nat.lt_trans factor.isLt (by decide))]
  -- the seconds that the nanoseconds carry are added to the others, the rest stays behind
  have whole : d.total * factor.toNat =
      (d.seconds.toNat * factor.toNat + nanos.toNat / 1000000000) * 1000000000 +
        nanos.toNat % 1000000000 := by
    rw [total, value, Nat.add_mul, Nat.add_mul, Nat.add_assoc, Nat.mul_comm (_ / _),
      Nat.div_add_mod, Nat.mul_right_comm]
  have carry : (nanos / 1000000000).toNat = nanos.toNat / 1000000000 := by
    rw [BitVec.toNat_udiv]
    rfl
  have seconds := toNat_times_plus? d.seconds (factor.setWidth 64) (nanos / 1000000000)
  rw [wide, carry] at seconds
  generalize d.seconds.toNat * factor.toNat + nanos.toNat / 1000000000 = n at seconds whole
  refine duration_eq ?_
  rw [show d.duration.nanos = d.total from rfl, whole]
  by_cases small : n < 2 ^ 64
  · obtain ⟨word, here, rfl⟩ := exists_of_fit seconds small
    rw [here, Option.map_some, Option.getD_some, total_carried]
    have begun : nanos.toNat % 1000000000 < 1000000000 := Nat.mod_lt _ (by decide)
    rw [Nat.min_eq_left (by unfold Duration.longest; omega)]
  · rw [eq_none_of_fit seconds (Nat.not_lt.1 small), Option.map_none, Option.getD_none]
    rw [Nat.min_eq_right (by unfold Duration.longest; omega)]
    exact total_longest

/-- **The shorter of two lengths in words is the shorter duration.** -/
theorem duration_shorter (a b : Span) : (a.shorter b).duration = a.duration.shorter b.duration := by
  have a_begun := a.begun
  have b_begun := b.begun
  -- nanoseconds never make up for a second
  have less : (b.seconds < a.seconds ∨ b.seconds = a.seconds ∧ b.nanos < a.nanos) ↔
      ¬ a.total ≤ b.total := by
    rw [BitVec.lt_def, BitVec.lt_def, ← BitVec.toNat_inj]
    unfold total
    omega
  unfold shorter Duration.shorter
  by_cases longer : a.duration.nanos ≤ b.duration.nanos
  · rw [if_neg (fun before => less.1 before longer), if_pos longer]
  · rw [if_pos (less.2 longer), if_neg longer]

end Span

end PostStore.Words
