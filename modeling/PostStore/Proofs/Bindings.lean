import Mathlib.Data.List.Nodup
import PostStore.Bindings
/-!
# Bindings of distinct keys

Maps whose keys are bound once each.  For these the order of the bindings does not matter to
lookups, and what an operation does to a lookup it does to the list of bindings.
-/

namespace PostStore

namespace Bindings

variable {κ α : Type} [DecidableEq κ]

theorem map_fst_put (key : κ) (value : α) (bindings : Bindings κ α) :
    (put key value bindings).map Prod.fst =
      if key ∈ bindings.map Prod.fst then bindings.map Prod.fst
      else bindings.map Prod.fst ++ [key] := by
  induction bindings with
  | nil => rfl
  | cons binding rest ih =>
    obtain ⟨k, v⟩ := binding
    by_cases same : k = key
    · subst same
      simp [put]
    · simp only [put, if_neg same, List.map_cons, ih, List.mem_cons, Ne.symm same, false_or]
      split <;> rfl

/-- Each key is bound once. -/
def Functional (bindings : Bindings κ α) : Prop := (bindings.map Prod.fst).Nodup

theorem Functional.put {bindings : Bindings κ α} (once : bindings.Functional) (key : κ)
    (value : α) : (bindings.put key value).Functional := by
  unfold Functional
  rw [map_fst_put]
  split
  · exact once
  · rename_i new
    exact List.nodup_append.2 ⟨once, List.nodup_singleton _, by
      rintro a member b (last : b ∈ [key]) rfl
      exact new (List.mem_singleton.1 last ▸ member)⟩

theorem Functional.erase {bindings : Bindings κ α} (once : bindings.Functional) (key : κ) :
    (bindings.erase key).Functional :=
  List.Nodup.sublist (List.Sublist.map _ List.filter_sublist) once

/-- When each key is bound once, a binding is what a lookup finds. -/
theorem Functional.mem_iff {bindings : Bindings κ α} (once : bindings.Functional) {key : κ}
    {value : α} : (key, value) ∈ bindings ↔ bindings.get? key = some value := by
  induction bindings with
  | nil => simp [get?]
  | cons binding rest ih =>
    obtain ⟨k, v⟩ := binding
    obtain ⟨fresh, once⟩ := List.nodup_cons.1 once
    rw [List.mem_cons, get?, ih once]
    by_cases same : k = key
    · subst same
      have absent : get? k rest ≠ some value := fun found =>
        fresh (List.mem_map.2 ⟨_, (ih once).2 found, rfl⟩)
      simp [absent, eq_comm]
    · simp [same, Ne.symm same]

/-- Dropping the last binding never brings one to light. -/
theorem get?_of_dropLast {key : κ} {value : α} (bindings : Bindings κ α)
    (found : get? key bindings.dropLast = some value) :
    get? key bindings = some value := by
  induction bindings with
  | nil => exact found
  | cons binding rest ih =>
    cases rest with
    | nil => cases found
    | cons next others =>
      -- the first binding stays, so it hides the same ones of the rest
      rw [List.dropLast_cons_cons, get?] at found
      rw [get?]
      split at found
      · rename_i here
        rwa [if_pos here]
      · rename_i elsewhere
        rw [if_neg elsewhere]
        exact ih found

variable {bindings other : Bindings κ α} {key : κ} {value : α}

/-- A key is bound when a binding has it. -/
theorem isSome_get?_iff : (bindings.get? key).isSome ↔ key ∈ bindings.map Prod.fst := by
  induction bindings with
  | nil => simp [get?]
  | cons binding rest ih =>
    obtain ⟨k, v⟩ := binding
    by_cases same : k = key
    · simp [get?, same]
    · simp only [get?, if_neg same, ih, List.map_cons, List.mem_cons, Ne.symm same, false_or]

theorem get?_eq_none_iff : bindings.get? key = none ↔ key ∉ bindings.map Prod.fst := by
  rw [← isSome_get?_iff, Option.not_isSome_iff_eq_none]

/-- Erasing a key that is not bound changes nothing. -/
theorem erase_of_get?_eq_none (unbound : bindings.get? key = none) :
    bindings.erase key = bindings := by
  refine List.filter_eq_self.2 fun binding member => decide_eq_true fun same => ?_
  exact get?_eq_none_iff.1 unbound (List.mem_map.2 ⟨binding, member, same⟩)

theorem key_ne_of_mem_erase {binding : κ × α} (member : binding ∈ bindings.erase key) :
    binding.1 ≠ key := by
  simpa using (List.mem_filter.1 member).2

/-- Bindings of distinct keys are one of them and what is left when its key is erased. -/
theorem Functional.perm_cons_erase (once : bindings.Functional)
    (bound : bindings.get? key = some value) :
    bindings.Perm ((key, value) :: Bindings.erase key bindings) := by
  induction bindings with
  | nil => cases bound
  | cons binding rest ih =>
    obtain ⟨k, v⟩ := binding
    obtain ⟨fresh, once⟩ := List.nodup_cons.1 once
    rw [get?] at bound
    split at bound
    · rename_i same
      subst same
      obtain rfl := Option.some.inj bound
      have rest_kept : Bindings.erase k rest = rest :=
        erase_of_get?_eq_none (get?_eq_none_iff.2 fresh)
      have here : Bindings.erase k ((k, v) :: rest) = Bindings.erase k rest :=
        List.filter_cons_of_neg (by simp)
      rw [here, rest_kept]
    · rename_i elsewhere
      have here : Bindings.erase key ((k, v) :: rest) = (k, v) :: Bindings.erase key rest :=
        List.filter_cons_of_pos (by simpa using elsewhere)
      rw [here]
      exact ((ih once bound).cons _).trans (List.Perm.swap _ _ _)

theorem erase_put (key : κ) (value : α) (bindings : Bindings κ α) :
    (bindings.put key value).erase key = bindings.erase key := by
  induction bindings with
  | nil => simp [put, erase]
  | cons binding rest ih =>
    obtain ⟨k, v⟩ := binding
    unfold erase at ih ⊢
    by_cases same : k = key
    · simp [put, same]
    · simpa [put, same] using ih

/-- A binding that is put stands beside those of the other keys. -/
theorem Functional.perm_put (once : bindings.Functional) (key : κ) (value : α) :
    (Bindings.put key value bindings).Perm ((key, value) :: Bindings.erase key bindings) := by
  have bound : (Bindings.put key value bindings).get? key = some value := by
    rw [get?_put, if_pos rfl]
  exact erase_put key value bindings ▸ (once.put key value).perm_cons_erase bound

/-- Beside bindings of other keys, each key bound once, a key may be bound. -/
theorem Functional.cons (once : bindings.Functional) (unbound : bindings.get? key = none)
    (value : α) : Bindings.Functional ((key, value) :: bindings) :=
  List.nodup_cons.2 ⟨get?_eq_none_iff.1 unbound, once⟩

omit [DecidableEq κ] in
theorem Functional.sublist (once : other.Functional) (part : bindings.Sublist other) :
    bindings.Functional :=
  List.Nodup.sublist (part.map _) once

/-- Erasing a key takes one binding out if the key is bound. -/
theorem Functional.length_erase (once : bindings.Functional) (key : κ) :
    (Bindings.erase key bindings).length + (bindings.get? key).isSome.toNat = bindings.length := by
  cases bound : bindings.get? key with
  | none => rw [erase_of_get?_eq_none bound]; rfl
  | some value => exact (once.perm_cons_erase bound).length_eq.symm

/-- Erasing the key of the last of bindings of distinct keys leaves those before it. -/
theorem erase_append_last (once : Bindings.Functional (bindings ++ [(key, value)])) :
    Bindings.erase key (bindings ++ [(key, value)]) = bindings := by
  have distinct : (bindings.map Prod.fst ++ [key]).Nodup := by
    rw [Functional, List.map_append] at once
    exact once
  have absent : key ∉ bindings.map Prod.fst := fun member =>
    (List.nodup_append.1 distinct).2.2 key member key (List.mem_singleton_self _) rfl
  have others : Bindings.erase key bindings = bindings :=
    erase_of_get?_eq_none (get?_eq_none_iff.2 absent)
  rw [Bindings.erase] at others ⊢
  rw [List.filter_append, others]
  simp

/-- The order of bindings of distinct keys does not matter to lookups. -/
theorem Functional.get?_perm (once : bindings.Functional) (alike : bindings.Perm other) :
    bindings.get? key = other.get? key := by
  have once' : other.Functional := ((alike.map Prod.fst).nodup_iff).1 once
  refine Option.ext fun value => ?_
  rw [← once.mem_iff, ← once'.mem_iff, alike.mem_iff]

end Bindings

end PostStore
