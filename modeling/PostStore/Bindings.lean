/-!
# Bindings

Finite maps as lists of bindings in order of insertion.  Putting a value under a key that is bound
keeps the place of the binding.  For each operation a lemma says what it does to lookups.
-/

namespace PostStore

/-- Keys with their values. -/
abbrev Bindings (κ α : Type) := List (κ × α)

namespace Bindings

variable {κ α : Type} [DecidableEq κ]

/-- The value bound to a key. -/
def get? (key : κ) : Bindings κ α → Option α
  | [] => none
  | (k, v) :: rest => if k = key then some v else get? key rest

/-- Binds a key to a value, in place when it is bound. -/
def put (key : κ) (value : α) : Bindings κ α → Bindings κ α
  | [] => [(key, value)]
  | (k, v) :: rest => if k = key then (key, value) :: rest else (k, v) :: put key value rest

/-- Drops the bindings of a key. -/
def erase (key : κ) (bindings : Bindings κ α) : Bindings κ α :=
  bindings.filter fun binding => binding.1 ≠ key

/-! ## Lookups afterwards -/

/-- After a put, the key is bound to the value and all else is as before. -/
theorem get?_put (key key' : κ) (value : α) (bindings : Bindings κ α) :
    get? key' (put key value bindings) = if key = key' then some value else get? key' bindings := by
  induction bindings with
  | nil => simp only [put, get?]
  | cons binding rest ih =>
    obtain ⟨k, v⟩ := binding
    by_cases same : k = key
    · subst same
      simp only [put, if_true, get?]
      split <;> rfl
    · simp only [put, if_neg same, get?, ih]
      by_cases here : k = key'
      · subst here
        simp [Ne.symm same]
      · simp [here]

/-- After an erasure, the key is unbound and all else is as before. -/
theorem get?_erase (key key' : κ) (bindings : Bindings κ α) :
    get? key' (erase key bindings) = if key = key' then none else get? key' bindings := by
  induction bindings with
  | nil => simp [erase, get?]
  | cons binding rest ih =>
    obtain ⟨k, v⟩ := binding
    unfold erase at ih ⊢
    by_cases same : k = key
    · subst same
      simp only [List.filter_cons, ne_eq, not_true_eq_false, decide_false, Bool.false_eq_true,
        if_false, ih, get?]
      split <;> simp_all
    · simp only [List.filter_cons, ne_eq, same, not_false_eq_true, decide_true, if_true, get?, ih]
      by_cases here : k = key'
      · subst here
        simp [Ne.symm same]
      · simp [here]

end Bindings

end PostStore
