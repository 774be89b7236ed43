import Mathlib.Algebra.Group.Nat.Defs
import Mathlib.Data.Nat.Basic
import Mathlib.Order.Monotone.Defs
import PostStore.Retry
import PostStore.Proofs.Retry.Words
/-!
# Pauses between attempts

A pause is the first one times a power of the coefficient, cut off three times: the power where a
word of 32 digits ends, the product where durations end, and all of it at the longest pause of the
policy.  None of the cuts undoes the growth of the pauses, and the words in which they are reckoned
hold every number on the way.
-/

namespace PostStore

namespace RetryPolicy

/-! ## Powers up to a bound -/

theorem lt_pow_of_log2_lt {bound base exponent : Nat} (large : 2 ≤ base)
    (enough : bound.log2 < exponent) : bound < base ^ exponent :=
  calc bound < 2 ^ (bound.log2 + 1) := Nat.lt_log2_self
    _ ≤ 2 ^ exponent := Nat.pow_le_pow_right (by decide) enough
    _ ≤ base ^ exponent := Nat.pow_le_pow_left large exponent

/-- A power of which only a few factors are taken passes the bound if the whole power does. -/
theorem cappedPow_eq (bound base exponent : Nat) :
    cappedPow bound base exponent = min bound (base ^ exponent) := by
  have taken : cappedPow bound base exponent =
      min bound (base ^ min exponent (bound.log2 + 1)) := rfl
  rw [taken]
  rcases Nat.le_total exponent (bound.log2 + 1) with few | many
  · rw [Nat.min_eq_left few]
  -- factors are left out: they make no difference to zero and one, and any other base has passed
  -- the bound before them
  rw [Nat.min_eq_right many]
  have some : exponent ≠ 0 := Nat.ne_of_gt (Nat.lt_of_lt_of_le (Nat.succ_pos _) many)
  match base with
  | 0 => rw [Nat.zero_pow (Nat.succ_pos _), Nat.zero_pow (Nat.pos_of_ne_zero some)]
  | 1 => rw [Nat.one_pow, Nat.one_pow]
  | base + 2 =>
    have large : 2 ≤ base + 2 := Nat.le_add_left 2 base
    rw [Nat.min_eq_left (Nat.le_of_lt (lt_pow_of_log2_lt large (Nat.lt_succ_self _))),
      Nat.min_eq_left (Nat.le_of_lt (lt_pow_of_log2_lt large many))]

/-! ## The length of a pause -/

variable (policy : RetryPolicy)

/-- A length of time in nanoseconds, cut off at the longest pause if there is one. -/
def cap (nanos : Nat) : Nat :=
  match policy.maximum with
  | some maximum => min nanos maximum.nanos
  | none => nanos

theorem cap_mono : Monotone policy.cap := by
  intro a b before
  unfold cap
  cases policy.maximum with
  | some maximum =>
    show min a maximum.nanos ≤ min b maximum.nanos
    omega
  | none => exact before

theorem nanos_shorter (a b : Duration) : (a.shorter b).nanos = min a.nanos b.nanos := by
  unfold Duration.shorter
  split <;> omega

/-- The length of a pause, with each place where it is cut off. -/
theorem nanos_interval (attempt : Nat) :
    (policy.interval attempt).nanos =
      policy.cap (min (policy.initial.nanos * min factorBound (policy.coefficient ^ (attempt - 1)))
        Duration.longest) := by
  unfold interval cap
  rw [cappedPow_eq]
  cases policy.maximum with
  | some maximum => exact nanos_shorter _ maximum
  | none => rfl

theorem interval_le_maximum {maximum : Duration} (limited : policy.maximum = some maximum)
    (attempt : Nat) : (policy.interval attempt).nanos ≤ maximum.nanos := by
  rw [nanos_interval, cap, limited]
  exact Nat.min_le_right _ _

/-- Short of both bounds a pause is reckoned exactly. -/
theorem interval_exact {attempt : Nat} (power : policy.coefficient ^ (attempt - 1) < 2 ^ 32)
    (product : policy.initial.nanos * policy.coefficient ^ (attempt - 1) ≤ Duration.longest) :
    (policy.interval attempt).nanos =
      policy.cap (policy.initial.nanos * policy.coefficient ^ (attempt - 1)) := by
  have small : policy.coefficient ^ (attempt - 1) ≤ factorBound := Nat.le_of_lt_succ power
  rw [nanos_interval, Nat.min_eq_right small, Nat.min_eq_left product]

/-- Pauses do not become shorter again. -/
theorem interval_mono (growing : 1 ≤ policy.coefficient) :
    Monotone fun attempt => (policy.interval attempt).nanos := by
  intro a b before
  have power : policy.coefficient ^ (a - 1) ≤ policy.coefficient ^ (b - 1) :=
    Nat.pow_le_pow_right growing (Nat.sub_le_sub_right before 1)
  -- each cut is monotone, so the growth of the power gets through all three
  have factor : min factorBound (policy.coefficient ^ (a - 1)) ≤
      min factorBound (policy.coefficient ^ (b - 1)) := by omega
  have product := Nat.mul_le_mul_left policy.initial.nanos factor
  show (policy.interval a).nanos ≤ (policy.interval b).nanos
  rw [nanos_interval, nanos_interval]
  exact policy.cap_mono (by omega)

end RetryPolicy

namespace Words

/-! ## Policies in words -/

/-- A policy as it is kept in words. -/
structure Policy where
  maxAttempts : BitVec 32
  coefficient : BitVec 32
  initial : Span
  maximum : Option Span

namespace Policy

variable (p : Policy)

/-- The policy that the words stand for. -/
def policy : RetryPolicy where
  maxAttempts := p.maxAttempts.toNat
  coefficient := p.coefficient.toNat
  initial := p.initial.duration
  maximum := p.maximum.map Span.duration

/-- The number of the attempt before, or zero. -/
def before (attempt : BitVec 32) : BitVec 32 := if attempt = 0 then 0 else attempt - 1

/-- The largest word in place of a power that does not fit. -/
def factor (attempt : BitVec 32) : BitVec 32 :=
  (pow? p.coefficient (before attempt).toNat).getD (BitVec.allOnes 32)

/-- A length of time, or the longest pause if that is shorter. -/
def cap (candidate : Span) : Span :=
  match p.maximum with
  | some maximum => candidate.shorter maximum
  | none => candidate

/-- The pause after a failed attempt, reckoned in words. -/
def interval (attempt : BitVec 32) : Option Span :=
  (p.initial.scale (p.factor attempt)).map p.cap

theorem toNat_before (attempt : BitVec 32) : (before attempt).toNat = attempt.toNat - 1 := by
  unfold before
  by_cases zero : attempt = 0
  · rw [if_pos zero, zero]
    rfl
  · have some : attempt.toNat ≠ 0 := fun none => zero (BitVec.eq_of_toNat_eq none)
    rw [if_neg zero]
    bv_omega

theorem toNat_factor (attempt : BitVec 32) :
    (p.factor attempt).toNat =
      RetryPolicy.cappedPow RetryPolicy.factorBound p.coefficient.toNat (attempt.toNat - 1) := by
  have power := toNat_pow? (by decide) p.coefficient (attempt.toNat - 1)
  rw [RetryPolicy.cappedPow_eq, factor, toNat_before]
  by_cases small : p.coefficient.toNat ^ (attempt.toNat - 1) < 2 ^ 32
  · obtain ⟨word, here, value⟩ := exists_of_fit power small
    rw [here, Option.getD_some, value]
    exact (Nat.min_eq_right (Nat.le_of_lt_succ small)).symm
  · have large := Nat.not_lt.1 small
    rw [eq_none_of_fit power large, Option.getD_none]
    exact (Nat.min_eq_left (Nat.le_of_lt large)).symm

/-- **A pause reckoned in words always comes out, and as the pause of the policy.** -/
theorem exists_interval (attempt : BitVec 32) :
    ∃ wait, p.interval attempt = some wait ∧
      wait.duration = p.policy.interval attempt.toNat := by
  obtain ⟨candidate, here, value⟩ := p.initial.exists_scale (p.factor attempt)
  rw [toNat_factor] at value
  refine ⟨p.cap candidate, by rw [interval, here, Option.map_some], ?_⟩
  unfold cap RetryPolicy.interval policy
  cases p.maximum with
  | some maximum =>
    rw [Option.map_some, ← value]
    exact candidate.duration_shorter maximum
  | none => exact value

/-- **Pauses are reckoned without a number that does not fit, never pass the longest pause of the
policy, are exact as long as the power and the product are within their bounds, and never become
shorter from one attempt to a later one unless the coefficient is zero.** -/
theorem interval_exact_and_monotone :
    (∀ attempt, ∃ wait, p.interval attempt = some wait ∧
      wait.duration = p.policy.interval attempt.toNat) ∧
    (∀ attempt maximum, p.policy.maximum = some maximum →
      (p.policy.interval attempt).nanos ≤ maximum.nanos) ∧
    (∀ attempt, p.policy.coefficient ^ (attempt - 1) < 2 ^ 32 →
      p.policy.initial.nanos * p.policy.coefficient ^ (attempt - 1) ≤ Duration.longest →
      (p.policy.interval attempt).nanos =
        p.policy.cap (p.policy.initial.nanos * p.policy.coefficient ^ (attempt - 1))) ∧
    (1 ≤ p.policy.coefficient → Monotone fun attempt => (p.policy.interval attempt).nanos) :=
  ⟨p.exists_interval, fun attempt _ limited => p.policy.interval_le_maximum limited attempt,
    fun _ power product => p.policy.interval_exact power product, p.policy.interval_mono⟩

/-- Half a second, doubled up to ten seconds. -/
def doubling : Policy where
  maxAttempts := 5
  coefficient := 2
  initial := ⟨0, 500000000, by decide⟩
  maximum := some ⟨10, 0, by decide⟩

theorem interval_exact_and_monotone_doubling :
    (∃ wait, doubling.interval 3 = some wait ∧
      wait.duration = doubling.policy.interval (3 : BitVec 32).toNat) ∧
    (doubling.policy.interval 4294967295).nanos ≤ 10000000000 ∧
    (doubling.policy.interval 3).nanos = 2000000000 ∧
    (doubling.policy.interval 3).nanos ≤ (doubling.policy.interval 4294967295).nanos := by
  obtain ⟨reckoned, limited, exact, growing⟩ := interval_exact_and_monotone doubling
  refine ⟨reckoned 3, limited _ (.ofSeconds 10) rfl, ?_, growing (by decide) (by decide)⟩
  exact exact 3 (by decide) (by decide)

end Policy

end Words

end PostStore
