import Mathlib.Data.ENat.Lattice
import PostStore.Proofs.Retry.Pauses
import PostStore.Proofs.Transcripts
/-!
# Attempts

A retried operation is tried until it ends well, at most as often as the policy says and at least
once, with the policy's pause after every failure that another attempt follows.  A loop that counts
its attempts in a word asks for exactly the same, since it stops counting where it stops trying.
-/

namespace PostStore

namespace RetryPolicy

variable {ε α : Type}

/-! ## Successes -/

/-- The number of the first attempt that ends well, counted from one; infinite if none does. -/
noncomputable def firstSuccess (outcome : Nat → Except ε α) : ℕ∞ :=
  ⨅ i, ⨅ (_ : (outcome i).isOk = true), ((i + 1 : Nat) : ℕ∞)

section FirstSuccess

variable {outcome : Nat → Except ε α} {n : Nat}

theorem firstSuccess_le (good : (outcome n).isOk = true) :
    firstSuccess outcome ≤ ((n + 1 : Nat) : ℕ∞) := iInf₂_le n good

theorem le_firstSuccess (bad : ∀ i < n, (outcome i).isOk = false) :
    ((n + 1 : Nat) : ℕ∞) ≤ firstSuccess outcome := by
  refine le_iInf₂ fun i good => ENat.natCast_le_natCast.2 (Nat.succ_le_succ ?_)
  refine Nat.le_of_not_lt fun early => ?_
  exact Bool.noConfusion ((bad i early).symm.trans good)

end FirstSuccess

/-! ## Failed attempts -/

/-- An attempt and how it ends. -/
def tried (outcome : Nat → Except ε α) (i : Nat) : Σ question : Ask, question.Reply ε α :=
  ⟨.attempt, outcome i⟩

/-- The pause after an attempt, counted from one. -/
def paused (policy : RetryPolicy) (attempt : Nat) : Σ question : Ask, question.Reply ε α :=
  ⟨.pause (policy.interval attempt), ()⟩

/-- So many failed attempts, each followed by its pause. -/
def failures (policy : RetryPolicy) (outcome : Nat → Except ε α) (first count : Nat) :
    List (Σ question : Ask, question.Reply ε α) :=
  (List.range' first count).flatMap fun i => [tried outcome i, policy.paused (i + 1)]

theorem failures_succ (policy : RetryPolicy) (outcome : Nat → Except ε α) (first count : Nat) :
    policy.failures outcome first (count + 1) =
      tried outcome first :: policy.paused (first + 1) ::
        policy.failures outcome (first + 1) count := rfl

/-! ## Trying -/

/-- How many attempts fail before the one whose outcome stands, when up to `more` may follow the
attempt number `first`, counted from zero. -/
inductive Tries (outcome : Nat → Except ε α) : (first more failed : Nat) → Prop where
  | last {first : Nat} : Tries outcome first 0 0
  | good {first more : Nat} (good : (outcome first).isOk = true) : Tries outcome first more 0
  | again {first more failed : Nat} (bad : (outcome first).isOk = false)
      (rest : Tries outcome (first + 1) more failed) : Tries outcome first (more + 1) (failed + 1)

/-- The time and the attempts after a failed attempt and its pause. -/
def afterFailure (policy : RetryPolicy) (outcome : Nat → Except ε α) (attempt : Nat)
    (line : Timeline) : Timeline :=
  (Timeline.serve outcome (.pause (policy.interval attempt))
    (Timeline.serve outcome .attempt line).2).2

/-- After a failure with more attempts to come there is a pause, and then the next attempt. -/
theorem tryFrom_error (policy : RetryPolicy) {outcome : Nat → Except ε α} (attempt more : Nat)
    {line : Timeline} {e : ε} (here : outcome line.attempts.length = .error e) :
    (policy.tryFrom attempt (more + 1)).transcript (Timeline.serve outcome) line =
        tried outcome line.attempts.length :: policy.paused attempt ::
          (policy.tryFrom (attempt + 1) more).transcript (Timeline.serve outcome)
            (afterFailure policy outcome attempt line) ∧
      (policy.tryFrom attempt (more + 1)).run (Timeline.serve outcome) line =
        (policy.tryFrom (attempt + 1) more).run (Timeline.serve outcome)
          (afterFailure policy outcome attempt line) := by
  simp only [tryFrom, Dialogue.transcript, Dialogue.run, Timeline.serve, here, tried, paused,
    afterFailure, and_self]

/-- A success is what comes of trying. -/
theorem tryFrom_ok (policy : RetryPolicy) {outcome : Nat → Except ε α} (attempt more : Nat)
    {line : Timeline} {value : α} (here : outcome line.attempts.length = .ok value) :
    (policy.tryFrom attempt more).transcript (Timeline.serve outcome) line =
        [tried outcome line.attempts.length] ∧
      ((policy.tryFrom attempt more).run (Timeline.serve outcome) line).1 = .ok value := by
  cases more with
  | zero => exact ⟨rfl, here⟩
  | succ more =>
    simp only [tryFrom, Dialogue.transcript, Dialogue.run, Timeline.serve, here, tried, and_self]

variable {outcome : Nat → Except ε α} {first more failed : Nat}

theorem exists_tries (outcome : Nat → Except ε α) (more : Nat) :
    ∀ first, ∃ failed, Tries outcome first more failed := by
  induction more with
  | zero => exact fun first => ⟨0, .last⟩
  | succ more ih =>
    intro first
    cases here : (outcome first).isOk with
    | true => exact ⟨0, .good here⟩
    | false =>
      obtain ⟨failed, rest⟩ := ih (first + 1)
      exact ⟨failed + 1, .again here rest⟩

namespace Tries

theorem bad (tries : Tries outcome first more failed) :
    ∀ i < failed, (outcome (first + i)).isOk = false := by
  induction tries with
  | last => exact fun i none => absurd none (Nat.not_lt_zero i)
  | good _ => exact fun i none => absurd none (Nat.not_lt_zero i)
  | @again first more failed bad rest ih =>
    intro i before
    cases i with
    | zero => exact bad
    | succ i =>
      rw [← Nat.succ_add_eq_add_succ first i]
      exact ih i (Nat.lt_of_succ_lt_succ before)

/-- Trying stops at a success, or with the last attempt that there may be. -/
theorem stops (tries : Tries outcome first more failed) :
    failed = more ∨ failed ≤ more ∧ (outcome (first + failed)).isOk = true := by
  induction tries with
  | last => exact .inl rfl
  | good good => exact .inr ⟨Nat.zero_le _, good⟩
  | @again first more failed bad rest ih =>
    rw [← Nat.succ_add_eq_add_succ first failed]
    exact ih.imp (congrArg (· + 1)) fun stopped => ⟨Nat.succ_le_succ stopped.1, stopped.2⟩

/-- What is asked: the failed attempts with their pauses, and the one whose outcome stands. -/
theorem asked (policy : RetryPolicy) (tries : Tries outcome first more failed) :
    ∀ line : Timeline, line.attempts.length = first →
      (policy.tryFrom (first + 1) more).transcript (Timeline.serve outcome) line =
          policy.failures outcome first failed ++ [tried outcome (first + failed)] ∧
        ((policy.tryFrom (first + 1) more).run (Timeline.serve outcome) line).1 =
          outcome (first + failed) := by
  induction tries with
  | last =>
    rintro line rfl
    exact ⟨rfl, rfl⟩
  | @good first more good =>
    rintro line rfl
    cases here : outcome line.attempts.length with
    | error e => exact Bool.noConfusion ((congrArg Except.isOk here).symm.trans good)
    | ok value =>
      obtain ⟨transcript, run⟩ := tryFrom_ok policy (line.attempts.length + 1) more here
      exact ⟨transcript, run⟩
  | @again first more failed bad rest ih =>
    rintro line rfl
    cases here : outcome line.attempts.length with
    | ok value => exact Bool.noConfusion (bad.symm.trans (congrArg Except.isOk here))
    | error e =>
      obtain ⟨asked, result⟩ :=
        ih (afterFailure policy outcome (line.attempts.length + 1) line) rfl
      obtain ⟨transcript, run⟩ := tryFrom_error policy (line.attempts.length + 1) more here
      have shift : line.attempts.length + (failed + 1) = line.attempts.length + 1 + failed := by
        omega
      rw [transcript, run, asked, result, failures_succ, shift]
      exact ⟨rfl, rfl⟩

/-- The attempt whose outcome stands is the last there may be, or the first that ends well. -/
theorem number (tries : Tries outcome 0 more failed) :
    ((failed + 1 : Nat) : ℕ∞) = min ((more + 1 : Nat) : ℕ∞) (firstSuccess outcome) := by
  have early : ((failed + 1 : Nat) : ℕ∞) ≤ firstSuccess outcome :=
    le_firstSuccess fun i before => by simpa using tries.bad i before
  rcases tries.stops with rfl | ⟨within, good⟩
  · exact (min_eq_left early).symm
  · have same : ((failed + 1 : Nat) : ℕ∞) = firstSuccess outcome :=
      le_antisymm early (firstSuccess_le (by simpa using good))
    rw [← same, min_eq_right (ENat.natCast_le_natCast.2 (Nat.succ_le_succ within))]

end Tries

end RetryPolicy

namespace Words.Policy

/-! ## Counting in a word -/

variable (p : Policy) {ε α : Type}

/-- Tries until an attempt ends well or is the last one, with the count of attempts in a word.
Nothing comes of it if a pause cannot be reckoned or the count does not fit. -/
def tryFrom (attempt : BitVec 32) :
    Dialogue RetryPolicy.Ask (RetryPolicy.Ask.Reply ε α) (Option (Except ε α)) :=
  .ask .attempt fun
    | .ok value => .done (some (.ok value))
    | .error e =>
      if p.maxAttempts ≤ attempt then .done (some (.error e))
      else match p.interval attempt with
        | none => .done none
        | some wait => .ask (.pause wait.duration) fun _ =>
          match _counted : plus? attempt 1 with
          | none => .done none
          | some next => tryFrom next
termination_by p.maxAttempts.toNat - attempt.toNat
decreasing_by
  have number : next.toNat = attempt.toNat + 1 := toNat_of_plus? ‹_›
  simp only [BitVec.le_def] at *
  omega

theorem tryFrom_eq (more : Nat) : ∀ attempt : BitVec 32,
    p.maxAttempts.toNat - attempt.toNat = more →
      p.tryFrom attempt =
        (p.policy.tryFrom attempt.toNat more).bind fun (result : Except ε α) =>
          .done (some result) := by
  induction more with
  | zero =>
    intro attempt left
    have last : p.maxAttempts ≤ attempt := BitVec.le_def.2 (Nat.le_of_sub_eq_zero left)
    rw [tryFrom]
    refine congrArg _ (funext fun reply => ?_)
    cases reply with
    | ok value => rfl
    | error e => exact if_pos last
  | succ more ih =>
    intro attempt left
    have before : ¬ p.maxAttempts ≤ attempt := by
      rw [BitVec.le_def]
      omega
    obtain ⟨wait, reckoned, same⟩ := p.exists_interval attempt
    -- there is an attempt to come, so the next count is at most a number that is a word
    have room : attempt.toNat + 1 < 2 ^ 32 := by
      have := p.maxAttempts.isLt
      omega
    obtain ⟨next, counted, -⟩ := exists_of_fit (toNat_plus? attempt 1) room
    have number : next.toNat = attempt.toNat + 1 := toNat_of_plus? counted
    have rest := ih next (by rw [number]; omega)
    rw [number] at rest
    rw [tryFrom]
    refine congrArg _ (funext fun reply => ?_)
    cases reply with
    | ok value => rfl
    | error e =>
      simp only [if_neg before, reckoned, Dialogue.bind]
      rw [← same]
      refine congrArg _ (funext fun _ => ?_)
      split
      · next full => exact absurd (counted.symm.trans full) (Option.some_ne_none next)
      · next next' here =>
        obtain rfl := Option.some.inj (counted.symm.trans here)
        exact rest

/-- **Retrying comes to an end after the right number of attempts.**  The operation is tried until
it first ends well, at most as often as the policy says and at least once; between two attempts,
and only there, stands the pause after the earlier of them; what comes of it is the outcome of the
last attempt, and those before it have failed.  The loop that counts in a word does all of this and
always comes out: its count never passes the word. -/
theorem retry_attempts (outcome : Nat → Except ε α) :
    (∃ last,
      ((last + 1 : Nat) : ℕ∞) =
        min ((max 1 p.policy.maxAttempts : Nat) : ℕ∞) (RetryPolicy.firstSuccess outcome) ∧
      p.policy.retry.transcript (RetryPolicy.Timeline.serve outcome) {} =
        p.policy.failures outcome 0 last ++ [RetryPolicy.tried outcome last] ∧
      (p.policy.retry.run (RetryPolicy.Timeline.serve outcome) {}).1 = outcome last ∧
      ∀ i < last, (outcome i).isOk = false) ∧
    p.tryFrom 1 = p.policy.retry.bind fun result : Except ε α => .done (some result) := by
  constructor
  · obtain ⟨last, tries⟩ := RetryPolicy.exists_tries outcome (p.policy.maxAttempts - 1) 0
    obtain ⟨asked, result⟩ := tries.asked p.policy {} rfl
    -- no attempts are as good as one
    have most : p.policy.maxAttempts - 1 + 1 = max 1 p.policy.maxAttempts := by omega
    rw [Nat.zero_add last] at asked result
    refine ⟨last, most ▸ tries.number, asked, result, fun i before => ?_⟩
    simpa using tries.bad i before
  · exact p.tryFrom_eq _ 1 rfl

/-- Two failures and then a success: three attempts, two pauses, and the success is what counts. -/
theorem retry_attempts_third :
    let outcome : Nat → Except String Nat := fun i => if i < 2 then .error "not yet" else .ok i
    let question := RetryPolicy.tried outcome
    doubling.policy.retry.transcript (RetryPolicy.Timeline.serve outcome) {} =
        [question 0, ⟨.pause (.ofMillis 500), ()⟩, question 1, ⟨.pause (.ofMillis 1000), ()⟩,
          question 2] ∧
      (doubling.policy.retry.run (RetryPolicy.Timeline.serve outcome) {}).1 = .ok 2 ∧
      doubling.tryFrom 1 =
        doubling.policy.retry.bind fun result : Except String Nat => .done (some result) := by
  intro outcome question
  obtain ⟨⟨last, number, asked, result, -⟩, counted⟩ := retry_attempts doubling outcome
  have third : RetryPolicy.firstSuccess outcome = ((3 : Nat) : ℕ∞) :=
    le_antisymm (RetryPolicy.firstSuccess_le (n := 2) rfl)
      (RetryPolicy.le_firstSuccess (n := 2) (by decide))
  have most : max 1 doubling.policy.maxAttempts = 5 := rfl
  rw [third, most, min_eq_right (ENat.natCast_le_natCast.2 (by decide)), ENat.natCast_inj] at number
  obtain rfl : last = 2 := Nat.succ.inj number
  exact ⟨asked, result, counted⟩

end Words.Policy

end PostStore
