import PostStore.Cache.Absent
import PostStore.Cache.Lru
import PostStore.Proofs.Bindings
import PostStore.Proofs.Healthy
/-!
# The cache in memory cannot be noticed

What each call of the cache in memory does to the lookups in it, failures of a store that leave it
as it is, and the main fact: however small the cache is, and whichever calls fail, calls made one
after the other are answered as if there were no cache.
-/

namespace PostStore

/-! ## Lookups in the cache in memory -/

namespace Lru

/-- What the cache holds under the key of a user and an identifier. -/
def peek (lru : Lru) : Catalogue := fun user id => lru.entries.get? (Post.cacheKey user id)

theorem get_answer (lru : Lru) (key : String) : (lru.get key).1 = lru.entries.get? key := by
  unfold get
  cases found : lru.entries.get? key <;> rfl

/-- A lookup changes the order of the entries only. -/
theorem get?_get (lru : Lru) (key key' : String) :
    (lru.get key).2.entries.get? key' = lru.entries.get? key' := by
  unfold get
  cases found : lru.entries.get? key with
  | none => rfl
  | some post =>
    simp only [Bindings.get?, Bindings.get?_erase]
    by_cases same : key = key'
    · subst same
      rw [if_pos rfl, found]
    · rw [if_neg same, if_neg same]

/-- The entry that was added comes first; of the others the last may be dropped. -/
theorem entries_add (lru : Lru) (key : String) (post : Post) :
    (lru.add key post).entries = (key, post) :: lru.entries.erase key ∨
      (lru.add key post).entries = (key, post) :: List.dropLast (lru.entries.erase key) := by
  simp only [add]
  split
  · exact .inr rfl
  · exact .inl rfl

theorem get?_add_self (lru : Lru) (key : String) (post : Post) :
    (lru.add key post).entries.get? key = some post := by
  rcases entries_add lru key post with h | h <;> rw [h, Bindings.get?, if_pos rfl]

/-- Adding an entry may drop another one and does nothing else to it. -/
theorem get?_of_add {lru : Lru} {key key' : String} {added post : Post} (other : key ≠ key')
    (found : (lru.add key added).entries.get? key' = some post) :
    lru.entries.get? key' = some post := by
  have kept : (lru.entries.erase key).get? key' = some post := by
    rcases entries_add lru key added with h | h <;> rw [h, Bindings.get?, if_neg other] at found
    · exact found
    · exact Bindings.get?_of_dropLast _ found
  rwa [Bindings.get?_erase, if_neg other] at kept

theorem get?_remove (lru : Lru) (key key' : String) :
    (lru.remove key).entries.get? key' = if key = key' then none else lru.entries.get? key' :=
  Bindings.get?_erase key key' lru.entries

/-- The cache in memory gives what it holds, and holds nothing that it was not given. -/
theorem forgetful : Lru.cache.Forgetful peek where
  get user id lru post found := by
    rw [peek, ← get_answer]
    exact found
  get_keeps user id lru u i post found := by
    rwa [peek, ← get?_get lru (Post.cacheKey user id)]
  add user id added lru u i post _ found := by
    by_cases same : Post.cacheKey user id = Post.cacheKey u i
    · -- under the key of the addition there is nothing else, whoever shares the key
      left
      have self := get?_add_self lru (Post.cacheKey u i) added
      simp only [peek, cache, serve, same] at found
      rw [found] at self
      cases self
      rfl
    · exact .inr (get?_of_add same found)
  remove user id lru u i post found := by
    simp only [peek, cache, serve, get?_remove] at found
    split at found
    · cases found
    · exact found

/-- The cache in memory lets go of what it is told to. -/
theorem clears (lru : Lru) (call : CacheCall) : Lru.cache.Clears peek lru call := by
  cases call with
  | get user id => trivial
  | add user id added =>
    intro post found _
    have self := get?_add_self lru (Post.cacheKey user id) added
    simp only [peek, cache, serve] at found
    rw [found] at self
    cases self
    rfl
  | remove user id =>
    intro post found
    simp only [peek, cache, serve, get?_remove, if_true] at found
    cases found

/-- In front of any store the cache in memory lets go of the copy of what a call changes. -/
theorem settles {σ κ : Type} (store : Store σ κ) (s : σ) (lru : Lru) (call : Call) :
    Coordinator.Settles store Lru.cache peek s lru call := by
  cases call with
  | create user data fresh => exact fun post _ => clears lru _
  | read user id => trivial
  | readAll user => trivial
  | update user id data clock => exact fun post _ => clears lru _
  | delete user id => exact clears lru (.remove user id)

end Lru

/-! ## Failures of a store -/

/-- A store while it fails, if it does: a lookup still comes through, and any other call gives the
failure and does nothing. -/
def Store.during {σ κ : Type} (store : Store σ κ) (fault : Option StoreError) : Store σ κ where
  name := store.name
  serve call state :=
    match call, fault with
    | .read user id, _ => store.serve (.read user id) state
    | call, some error => (call.fail error, state)
    | call, none => store.serve call state
  feed := store.feed

section Faults

variable {σ κ : Type} {store : Store σ κ} {sound : σ → Prop} {held : σ → Catalogue}

theorem Store.during_none (store : Store σ κ) (call : Call) (s : σ) :
    (store.during none).serve call s = store.serve call s := by
  cases call <;> rfl

/-- While it fails a store is still faithful. -/
theorem Store.Faithful.during (faithful : store.Faithful sound held) (fault : Option StoreError) :
    (store.during fault).Faithful sound held := by
  cases fault with
  | none =>
    have serve : (store.during none).serve = store.serve := by
      funext call s
      exact store.during_none call s
    exact ⟨by simpa only [serve] using faithful.keeps_sound, faithful.own,
      faithful.read, faithful.held_read, faithful.held_readAll, faithful.create_ok,
      faithful.create_error, faithful.update, faithful.update_error, faithful.delete⟩
  | some error =>
    refine ⟨?_, faithful.own, faithful.read, faithful.held_read, fun _ _ _ => rfl, ?_,
      fun _ _ _ _ _ _ _ => rfl, fun _ _ _ _ _ _ _ _ _ => rfl, fun _ _ _ _ _ _ _ _ => rfl,
      fun _ _ _ _ _ _ _ => rfl⟩
    · intro call s good
      cases call with
      | read user id => exact faithful.keeps_sound (.read user id) s good
      | create => exact good
      | readAll => exact good
      | update => exact good
      | delete => exact good
    · intro user data fresh s post _ h
      cases h

/-- While it fails a store still answers alike in related states. -/
theorem Store.Bisimilar.during {scope : Call → Prop} {same : σ → σ → Prop}
    (bisimilar : store.Bisimilar scope same) (fault : Option StoreError) :
    (store.during fault).Bisimilar scope same := by
  refine ⟨?_, ?_, bisimilar.skip⟩
  · intro call s s' inScope alike
    cases fault with
    | none => simpa only [during_none] using bisimilar.answer call s s' inScope alike
    | some error =>
      cases call with
      | read user id => exact bisimilar.answer _ s s' inScope alike
      | create => rfl
      | readAll => rfl
      | update => rfl
      | delete => rfl
  · intro call s s' inScope alike
    cases fault with
    | none => simpa only [during_none] using bisimilar.next call s s' inScope alike
    | some error =>
      cases call with
      | read user id => exact bisimilar.next _ s s' inScope alike
      | create => exact alike
      | readAll => exact alike
      | update => exact alike
      | delete => exact alike

end Faults

/-! ## Calls one after the other -/

/-- A call, and the failure that the store meets it with, if any. -/
structure Attempt where
  call : Call
  fault : Option StoreError := none
  deriving DecidableEq

/-- **No calls, whatever they are about and whichever fail, tell the store in memory behind a cache
of any capacity from one without a cache.** -/
theorem lru_transparent (capacity : Nat) (attempts : List Attempt) :
    replies (fun attempt : Attempt =>
        ((Memory.store.during attempt.fault).cachedBy Lru.cache).reply attempt.call)
      attempts ({}, { capacity }) =
    replies (fun attempt : Attempt =>
        ((Memory.store.during attempt.fault).behind Cache.absent).reply attempt.call)
      attempts {} := by
  -- the store behind the cache is the other one, and the cache has no post that it does not have
  let related : Memory × Lru → Memory → Prop := fun w memory =>
    w.1.Filed ∧ w.1 = memory ∧ Coherent w.1.find? w.2.peek
  refine replies_eq related ?_ attempts
    ⟨Memory.filed_empty, rfl, Coherent.of_empty fun _ _ => rfl⟩
  rintro ⟨call, fault⟩ ⟨memory, lru⟩ memory' ⟨filed, same, coherent⟩
  have faithful := Memory.healthy.faithful.during fault
  have bisimilar := (Memory.bisimilar fun _ => True).during fault
  obtain ⟨answer, next, kept⟩ := serve_cachedBy_agrees faithful bisimilar Lru.forgetful
    (fun _ _ _ _ _ _ => trivial) trivial
    filed same coherent (Lru.settles _ memory lru call)
  have still :
      (((Memory.store.during fault).cachedBy Lru.cache).serve call (memory, lru)).2.1.Filed := by
    rw [next, ← same]
    exact faithful.keeps_sound call memory filed
  simp only [Store.reply, serve_behind_absent, answer]
  exact ⟨trivial, still, next, kept⟩

end PostStore
