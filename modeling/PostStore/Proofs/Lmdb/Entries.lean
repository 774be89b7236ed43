import PostStore.Lmdb.Environment
/-!
# Entries in ascending order

What filing and dropping do to the entries of the document file as long as their keys ascend, and
the part of them that a listing looks at: the entries whose keys start like a given one lie side by
side.
-/

namespace PostStore.Lmdb

namespace Entries

/-! ## Order of keys -/

/-- The keys ascend. -/
def Sorted (entries : Entries) : Prop := entries.Pairwise fun entry later => entry.1 < later.1

/-- Of two keys that are not the same one comes before the other. -/
theorem lt_or_lt {key key' : Bytes} (other : key ≠ key') : key < key' ∨ key' < key := by
  by_cases before : key < key'
  · exact .inl before
  · by_cases behind : key' < key
    · exact .inr behind
    · exact absurd (List.le_antisymm behind before) other

/-- What lies between a piece and something that starts with it starts with it too. -/
theorem isPrefix_of_between {piece key : Bytes} (rest : Bytes) (ge : ¬ key < piece)
    (le : ¬ piece ++ rest < key) : piece <+: key := by
  induction piece generalizing key with
  | nil => exact List.nil_prefix
  | cons b piece ih =>
    cases key with
    | nil => exact absurd (List.nil_lt_cons b piece) ge
    | cons c key =>
      rw [List.cons_lt_cons_iff] at ge
      rw [List.cons_append, List.cons_lt_cons_iff] at le
      obtain ⟨notBelow, tailGe⟩ := not_or.1 ge
      obtain ⟨notAbove, tailLe⟩ := not_or.1 le
      obtain rfl : c = b := UInt8.le_antisymm (UInt8.not_lt.1 notAbove) (UInt8.not_lt.1 notBelow)
      exact List.cons_prefix_cons.2
        ⟨rfl, ih (fun below => tailGe ⟨rfl, below⟩) (fun above => tailLe ⟨rfl, above⟩)⟩

/-- What starts with a piece does not come before it. -/
theorem not_lt_of_isPrefix {piece key : Bytes} (start : piece <+: key) : ¬ key < piece := by
  induction piece generalizing key with
  | nil => exact List.not_lt_nil key
  | cons b piece ih =>
    obtain ⟨rest, rfl⟩ := start
    rw [List.cons_append, List.cons_lt_cons_iff]
    rintro (below | ⟨_, below⟩)
    · exact UInt8.lt_irrefl b below
    · exact ih (List.prefix_append piece rest) below

/-! ## Filing and dropping -/

/-- Filing a value replaces what was under its key and nothing else. -/
theorem mem_insert {entries : Entries} (sorted : entries.Sorted) (key value : Bytes)
    (entry : Bytes × Bytes) :
    entry ∈ entries.insert key value ↔ entry = (key, value) ∨ entry ∈ entries ∧ entry.1 ≠ key := by
  induction entries with
  | nil => simp [insert]
  | cons first rest ih =>
    obtain ⟨k, v⟩ := first
    obtain ⟨ahead, sortedRest⟩ := List.pairwise_cons.1 sorted
    rw [insert]
    split
    · -- the key comes before all others, so none of them is the same
      rename_i before
      have different : ∀ entry ∈ (k, v) :: rest, entry.1 ≠ key := by
        rintro entry member rfl
        rcases List.mem_cons.1 member with rfl | later
        · exact List.lt_irrefl _ before
        · exact List.lt_irrefl _ (List.lt_trans before (ahead entry later))
      rw [List.mem_cons]
      exact or_congr_right ⟨fun member => ⟨member, different entry member⟩, And.left⟩
    · split
      · -- the value is replaced, and no other entry has the key
        rename_i here
        subst here
        have different : ∀ entry ∈ rest, entry.1 ≠ k := fun entry member same =>
          List.lt_irrefl _ (same ▸ ahead entry member)
        rw [List.mem_cons, List.mem_cons]
        constructor
        · rintro (rfl | member)
          · exact .inl rfl
          · exact .inr ⟨.inr member, different entry member⟩
        · rintro (rfl | ⟨rfl | member, other⟩)
          · exact .inl rfl
          · exact absurd rfl other
          · exact .inr member
      · rename_i other
        rw [List.mem_cons, ih sortedRest, List.mem_cons]
        constructor
        · rintro (rfl | rfl | ⟨member, different⟩)
          · exact .inr ⟨.inl rfl, other⟩
          · exact .inl rfl
          · exact .inr ⟨.inr member, different⟩
        · rintro (rfl | ⟨rfl | member, different⟩)
          · exact .inr (.inl rfl)
          · exact .inl rfl
          · exact .inr (.inr ⟨member, different⟩)

/-- Filing keeps the keys ascending. -/
theorem Sorted.insert {entries : Entries} (sorted : entries.Sorted) (key value : Bytes) :
    (entries.insert key value).Sorted := by
  induction entries with
  | nil => exact List.pairwise_singleton _ _
  | cons first rest ih =>
    obtain ⟨k, v⟩ := first
    obtain ⟨ahead, sortedRest⟩ := List.pairwise_cons.1 sorted
    rw [Entries.insert]
    split
    · rename_i before
      refine List.pairwise_cons.2 ⟨?_, sorted⟩
      intro entry member
      rcases List.mem_cons.1 member with rfl | later
      · exact before
      · exact List.lt_trans before (ahead entry later)
    · split
      · rename_i here
        subst here
        exact List.pairwise_cons.2 ⟨ahead, sortedRest⟩
      · rename_i notBefore other
        refine List.pairwise_cons.2 ⟨?_, ih sortedRest⟩
        intro entry member
        rcases (mem_insert sortedRest key value entry).1 member with rfl | ⟨later, _⟩
        · exact (lt_or_lt other).resolve_right notBefore
        · exact ahead entry later

theorem mem_erase (entries : Entries) (key : Bytes) (entry : Bytes × Bytes) :
    entry ∈ entries.erase key ↔ entry ∈ entries ∧ entry.1 ≠ key := by
  simp [erase]

theorem Sorted.erase {entries : Entries} (sorted : entries.Sorted) (key : Bytes) :
    (entries.erase key).Sorted :=
  List.Pairwise.sublist List.filter_sublist sorted

/-- When the keys ascend, a lookup finds exactly what is there. -/
theorem Sorted.get?_eq_some {entries : Entries} (sorted : entries.Sorted) {key value : Bytes} :
    entries.get? key = some value ↔ (key, value) ∈ entries := by
  induction entries with
  | nil => simp [get?]
  | cons first rest ih =>
    obtain ⟨k, v⟩ := first
    obtain ⟨ahead, sortedRest⟩ := List.pairwise_cons.1 sorted
    rw [get?, List.mem_cons]
    split
    · rename_i here
      subst here
      have absent : (k, value) ∉ rest := fun member => List.lt_irrefl k (ahead (k, value) member)
      simp [absent, eq_comm]
    · rename_i other
      simp [ih sortedRest, Ne.symm other]

/-! ## Entries whose keys start alike -/

/-- Where a property of elements ends for good, the elements in front are those that have it. -/
theorem takeWhile_eq_filter {α : Type} {holds : α → Bool} {list : List α}
    (back : list.Pairwise fun a b => holds b = true → holds a = true) :
    list.takeWhile holds = list.filter holds := by
  induction list with
  | nil => rfl
  | cons a rest ih =>
    obtain ⟨ahead, backRest⟩ := List.pairwise_cons.1 back
    by_cases here : holds a = true
    · rw [List.takeWhile_cons_of_pos here, List.filter_cons_of_pos here, ih backRest]
    · have none : rest.filter holds = [] := List.filter_eq_nil_iff.2 fun b member later =>
        here (ahead b member later)
      rw [List.takeWhile_cons_of_neg here, List.filter_cons_of_neg here, none]

/-- From any key that does not come before a piece, the entries whose keys start with the piece come
first. -/
theorem Sorted.takeWhile_isPrefix {entries : Entries} (sorted : entries.Sorted) {piece : Bytes}
    (ge : ∀ entry ∈ entries, ¬ entry.1 < piece) :
    (entries.takeWhile fun entry => piece.isPrefixOf entry.1) =
      entries.filter fun entry => piece.isPrefixOf entry.1 := by
  refine takeWhile_eq_filter (List.Pairwise.imp_of_mem ?_ sorted)
  intro entry later member _ before start
  rw [List.isPrefixOf_iff_prefix] at start ⊢
  obtain ⟨rest, eq⟩ := start
  refine isPrefix_of_between rest (ge entry member) ?_
  rw [eq]
  exact fun behind => List.lt_irrefl _ (List.lt_trans before behind)

end Entries

end PostStore.Lmdb
