import Mathlib.Data.List.MinMax
import PostStore.Proofs.Agreement
import PostStore.Proofs.LruTransparency
/-!
# What the cache in memory keeps

A history of calls, the latest first, tells when the entry under a key was last used: when it was
added, or looked up and found.  The entries of the cache in memory stand in the order of their last
use, and an entry is dropped only to make room for one under a new key, and then it is the one whose
last use is longest ago.  From this follow what a lookup finds, what the counts count, and that the
cache answers like a shelf on which every entry bears the time of its last use.
-/

namespace PostStore

/-! ## Histories -/

namespace CacheCall

/-- The key that a call is about. -/
def key : CacheCall → String
  | .get user id | .add user id _ | .remove user id => Post.cacheKey user id

/-- Whether a call is a lookup. -/
def looksUp : CacheCall → Bool
  | .get .. => true
  | .add .. | .remove .. => false

/-- Whether a call files a post under a key. -/
def files (call : CacheCall) (key : String) : Bool :=
  match call with
  | .add user id _ => Post.cacheKey user id = key
  | .get .. | .remove .. => false

end CacheCall

/-- What was filed last under a key and not removed since: what a cache without bounds holds. -/
def lastFiled (key : String) : List CacheCall → Option Post
  | [] => none
  | .get .. :: history => lastFiled key history
  | .add user id post :: history =>
    if Post.cacheKey user id = key then some post else lastFiled key history
  | .remove user id :: history =>
    if Post.cacheKey user id = key then none else lastFiled key history

namespace Lru

/-- The cache of a capacity after a history, the latest call first. -/
def following (capacity : Nat) : List CacheCall → Lru
  | [] => { capacity }
  | call :: history => (serve call (following capacity history)).2

/-- Whether a key has an entry. -/
def has (lru : Lru) (key : String) : Bool := (lru.entries.get? key).isSome

/-- Whether a call uses the entry under its key: it adds it, or looks it up and finds it. -/
def uses (lru : Lru) : CacheCall → Bool
  | .get user id => lru.has (Post.cacheKey user id)
  | .add .. => true
  | .remove .. => false

/-- Whether a call adds an entry under a new key. -/
def brings (lru : Lru) : CacheCall → Bool
  | .add user id _ => !lru.has (Post.cacheKey user id)
  | .get .. | .remove .. => false

/-- Whether a call removes an entry. -/
def takesOut (lru : Lru) : CacheCall → Bool
  | .remove user id => lru.has (Post.cacheKey user id)
  | .get .. | .add .. => false

/-- The keys, other than the one that a call is about, whose entries are gone after it. -/
def dropped (lru : Lru) (call : CacheCall) : List String :=
  (lru.entries.map Prod.fst).filter fun key => key ≠ call.key ∧ ¬ (serve call lru).2.has key

/-- After how many calls the entry under a key was last used, zero for never. -/
def lastUse (capacity : Nat) (key : String) : List CacheCall → Nat
  | [] => 0
  | call :: history =>
    if call.key = key ∧ (following capacity history).uses call then history.length + 1
    else lastUse capacity key history

/-- Whether an entry under a key was dropped since a post was last filed there. -/
def gone (capacity : Nat) (key : String) : List CacheCall → Bool
  | [] => false
  | call :: history =>
    if call.files key then false
    else key ∈ (following capacity history).dropped call || gone capacity key history

/-- A count over the calls of a history, each with the cache that met it. -/
def total (capacity : Nat) (count : Lru → CacheCall → Nat) : List CacheCall → Nat
  | [] => 0
  | call :: history => count (following capacity history) call + total capacity count history

/-- What it is to keep what was used last, after a history. -/
structure KeepsLatest (capacity : Nat) (history : List CacheCall) : Prop where
  /-- No key has two entries. -/
  once : (following capacity history).entries.Functional
  /-- There are never more entries than the capacity allows. -/
  bounded : (following capacity history).entries.length ≤ capacity
  /-- The entries stand in the order of their last use. -/
  ordered : (following capacity history).entries.Pairwise fun newer older =>
    lastUse capacity older.1 history < lastUse capacity newer.1 history
  /-- A lookup gives what was last filed under its key, unless it was removed or dropped since. -/
  found : ∀ user id, (cache.serve (.get user id) (following capacity history)).1 =
    if gone capacity (Post.cacheKey user id) history then none
    else lastFiled (Post.cacheKey user id) history
  /-- An entry added under a new key to a full cache drops the one used longest ago and no other. -/
  makesRoom : ∀ call, (following capacity history).brings call →
    (following capacity history).entries.length = capacity →
      ∃ oldest, (following capacity history).has oldest ∧
        (∀ key, (following capacity history).has key → key ≠ oldest →
          lastUse capacity oldest history < lastUse capacity key history) ∧
        (following capacity history).dropped call = [oldest]
  /-- Nothing else drops an entry. -/
  spares : ∀ call, ¬ ((following capacity history).brings call ∧
    (following capacity history).entries.length = capacity) →
      (following capacity history).dropped call = []
  /-- Every lookup is counted, as a hit or as a miss. -/
  lookups : (cache.stats (following capacity history)).hits +
    (cache.stats (following capacity history)).misses = history.countP CacheCall.looksUp
  /-- What is counted as evicted is what was dropped to make room. -/
  evicted : (cache.stats (following capacity history)).evictions =
    total capacity (fun lru call => (lru.dropped call).length) history
  /-- Every entry that was brought is still there, was dropped, or was taken out. -/
  balance : total capacity (fun lru call => (lru.brings call).toNat) history =
    (cache.stats (following capacity history)).entries +
      (cache.stats (following capacity history)).evictions +
      total capacity (fun lru call => (lru.takesOut call).toNat) history

/-! ## One call -/

section Calls

variable {lru after : Lru} {call : CacheCall} {key : String} {post : Post}

/-- What a call makes of the cache that it meets. -/
inductive Moves (lru : Lru) : CacheCall → Lru → Prop
  | hit {user id : String} {post : Post}
      (bound : lru.entries.get? (Post.cacheKey user id) = some post) :
      Moves lru (.get user id)
        { lru with
          entries := (Post.cacheKey user id, post) :: lru.entries.erase (Post.cacheKey user id)
          hits := lru.hits + 1 }
  | miss {user id : String} (unbound : lru.entries.get? (Post.cacheKey user id) = none) :
      Moves lru (.get user id) { lru with misses := lru.misses + 1 }
  | filed {user id : String} {post : Post}
      (room : lru.has (Post.cacheKey user id) ∨ lru.entries.length < lru.capacity) :
      Moves lru (.add user id post)
        { lru with
          entries := (Post.cacheKey user id, post) :: lru.entries.erase (Post.cacheKey user id) }
  | pushed {user id : String} {post : Post}
      (unbound : lru.entries.get? (Post.cacheKey user id) = none)
      (full : lru.capacity ≤ lru.entries.length) :
      Moves lru (.add user id post)
        { lru with
          entries := (Post.cacheKey user id, post) :: lru.entries.dropLast
          evictions := lru.evictions + 1 }
  | removed {user id : String} :
      Moves lru (.remove user id)
        { lru with entries := lru.entries.erase (Post.cacheKey user id) }

theorem moves (lru : Lru) (call : CacheCall) : Moves lru call (serve call lru).2 := by
  cases call with
  | get user id =>
    simp only [serve, get]
    split
    · rename_i post bound
      exact .hit bound
    · rename_i unbound
      exact .miss unbound
  | add user id post =>
    simp only [serve, add]
    split
    · rename_i new
      obtain ⟨unbound, full⟩ := new
      have unbound := Option.isNone_iff_eq_none.1 unbound
      rw [Bindings.erase_of_get?_eq_none unbound] at full ⊢
      exact .pushed unbound full
    · rename_i room
      refine .filed ?_
      by_cases bound : lru.has (Post.cacheKey user id)
      · exact .inl bound
      · have unbound : lru.entries.get? (Post.cacheKey user id) = none := by
          simpa [has] using bound
        rw [Bindings.erase_of_get?_eq_none unbound, unbound] at room
        exact .inr (by simpa using room)
  | remove user id => exact .removed

/-- A lookup elsewhere gives no other post than before. -/
theorem get?_of_serve (elsewhere : key ≠ call.key)
    (found : (serve call lru).2.entries.get? key = some post) :
    lru.entries.get? key = some post := by
  cases call with
  | get user id => exact get?_get lru _ key ▸ found
  | add user id added => exact get?_of_add (Ne.symm elsewhere) found
  | remove user id =>
    have other : Post.cacheKey user id ≠ key := Ne.symm elsewhere
    rw [serve, get?_remove, if_neg other] at found
    exact found

theorem mem_dropped :
    key ∈ lru.dropped call ↔ key ≠ call.key ∧ lru.has key ∧ ¬ (serve call lru).2.has key := by
  rw [dropped, List.mem_filter, ← Bindings.isSome_get?_iff, has]
  simp only [decide_eq_true_eq]
  tauto

/-- Elsewhere a lookup gives what it gave before, unless that was dropped. -/
theorem get?_serve (elsewhere : key ≠ call.key) :
    (serve call lru).2.entries.get? key =
      if key ∈ lru.dropped call then none else lru.entries.get? key := by
  cases found : (serve call lru).2.entries.get? key with
  | some post =>
    have still : key ∉ lru.dropped call := fun member =>
      (mem_dropped.1 member).2.2 (by rw [has, found]; rfl)
    rw [if_neg still, get?_of_serve elsewhere found]
  | none =>
    cases before : lru.entries.get? key with
    | none => exact (ite_self none).symm
    | some post =>
      have lost : key ∈ lru.dropped call :=
        mem_dropped.2 ⟨elsewhere, by rw [has, before]; rfl, by rw [has, found]; exact nofun⟩
      rw [if_pos lost]

theorem Moves.once (move : Moves lru call after) (once : lru.entries.Functional) :
    after.entries.Functional := by
  have unbound (key : String) : (lru.entries.erase key).get? key = none := by
    rw [Bindings.get?_erase, if_pos rfl]
  cases move with
  | hit bound => exact (once.erase _).cons (unbound _) _
  | miss _ => exact once
  | filed _ => exact (once.erase _).cons (unbound _) _
  | pushed fresh _ =>
    refine (once.sublist (List.dropLast_sublist _)).cons ?_ _
    refine Option.eq_none_iff_forall_ne_some.2 fun post found => ?_
    rw [Bindings.get?_of_dropLast _ found] at fresh
    cases fresh
  | removed => exact once.erase _

theorem Moves.capacity_eq (move : Moves lru call after) : after.capacity = lru.capacity := by
  cases move <;> rfl

/-- What comes in by a call is there afterwards, was dropped for it, or takes the place of what is
taken out. -/
theorem Moves.balance (move : Moves lru call after) (once : lru.entries.Functional)
    (positive : 0 < lru.capacity) :
    (lru.brings call).toNat + lru.entries.length + lru.evictions =
      after.entries.length + after.evictions + (lru.takesOut call).toNat := by
  cases move with
  | @hit user id post bound =>
    have length := once.length_erase (Post.cacheKey user id)
    rw [bound] at length
    simp only [brings, takesOut, List.length_cons, Bool.toNat_false, Option.isSome_some,
      Bool.toNat_true] at length ⊢
    omega
  | miss _ => simp only [brings, takesOut, Bool.toNat_false]; omega
  | @filed user id post _ =>
    have length := once.length_erase (Post.cacheKey user id)
    simp only [brings, takesOut, has, List.length_cons, Bool.toNat_false]
    cases found : lru.entries.get? (Post.cacheKey user id) <;> rw [found] at length <;>
      simp only [Option.isSome_none, Option.isSome_some, Bool.toNat_false, Bool.toNat_true,
        Bool.not_false, Bool.not_true] at length ⊢ <;> omega
  | pushed unbound full =>
    simp only [brings, takesOut, has, unbound, List.length_cons, List.length_dropLast,
      Bool.toNat_false, Option.isSome_none, Bool.not_false, Bool.toNat_true]
    omega
  | @removed user id =>
    have length := once.length_erase (Post.cacheKey user id)
    simp only [brings, takesOut, has, Bool.toNat_false] at length ⊢
    omega

theorem Moves.bounded (move : Moves lru call after) (once : lru.entries.Functional)
    (positive : 0 < lru.capacity) (bounded : lru.entries.length ≤ lru.capacity) :
    after.entries.length ≤ after.capacity := by
  cases move with
  | @hit user id post bound =>
    have length := (once.perm_cons_erase bound).length_eq
    rw [List.length_cons] at length ⊢
    exact length ▸ bounded
  | miss _ => exact bounded
  | @filed user id post room =>
    have length := once.length_erase (Post.cacheKey user id)
    rw [List.length_cons]
    rcases room with bound | free
    · rw [has] at bound
      rw [bound, Bool.toNat_true] at length
      exact length ▸ bounded
    · exact Nat.lt_of_le_of_lt (by omega) free
  | pushed unbound full =>
    simp only [List.length_cons, List.length_dropLast]
    omega
  | removed => exact (List.length_filter_le _ _).trans bounded

/-- Unless an entry under a new key is added to a full cache, nothing is dropped. -/
theorem dropped_of_room (room : ¬ (lru.brings call ∧ lru.capacity ≤ lru.entries.length)) :
    lru.dropped call = [] := by
  refine List.eq_nil_iff_forall_not_mem.2 fun key member => ?_
  obtain ⟨elsewhere, bound, lost⟩ := mem_dropped.1 member
  refine lost ?_
  have move := moves lru call
  generalize (serve call lru).2 = after at move
  rw [has] at bound ⊢
  cases move with
  | hit _ =>
    have other : Post.cacheKey _ _ ≠ key := Ne.symm elsewhere
    rwa [Bindings.get?, if_neg other, Bindings.get?_erase, if_neg other]
  | miss _ => exact bound
  | filed _ =>
    have other : Post.cacheKey _ _ ≠ key := Ne.symm elsewhere
    rwa [Bindings.get?, if_neg other, Bindings.get?_erase, if_neg other]
  | pushed unbound full => exact absurd ⟨by rw [brings, has, unbound]; rfl, full⟩ room
  | removed =>
    have other : Post.cacheKey _ _ ≠ key := Ne.symm elsewhere
    rwa [Bindings.get?_erase, if_neg other]

/-- An entry added under a new key to a full cache takes the place of the last one. -/
theorem Moves.pushes (move : Moves lru call after) (new : lru.brings call)
    (full : lru.capacity ≤ lru.entries.length) :
    lru.entries.get? call.key = none ∧
      ∃ post, after.entries = (call.key, post) :: lru.entries.dropLast := by
  cases move with
  | hit _ => cases new
  | miss _ => cases new
  | filed room =>
    rw [brings] at new
    rcases room with bound | free
    · rw [bound] at new
      cases new
    · omega
  | @pushed user id post unbound _ => exact ⟨unbound, post, rfl⟩
  | removed => cases new

/-- An entry added under a new key to a full cache drops the last one. -/
theorem dropped_of_full (once : lru.entries.Functional) (new : lru.brings call)
    (full : lru.capacity ≤ lru.entries.length) {front : Bindings String Post} {oldest : String}
    {copy : Post} (split : lru.entries = front ++ [(oldest, copy)]) :
    lru.dropped call = [oldest] := by
  obtain ⟨fresh, post, entries⟩ := (moves lru call).pushes new full
  rw [split, List.dropLast_concat] at entries
  have keys : lru.entries.map Prod.fst = front.map Prod.fst ++ [oldest] := by
    rw [split, List.map_append, List.map_cons, List.map_nil]
  have lastOnly : oldest ∉ front.map Prod.fst := fun member =>
    (List.nodup_append.1 (keys ▸ once)).2.2 oldest member oldest (List.mem_singleton_self _) rfl
  have stays (key : String) (other : key ≠ call.key) :
      (serve call lru).2.has key ↔ key ∈ front.map Prod.fst := by
    rw [has, entries, Bindings.get?, if_neg (Ne.symm other), Bindings.isSome_get?_iff]
  rw [Bindings.get?_eq_none_iff, keys] at fresh
  have other : oldest ≠ call.key := fun same => fresh (same ▸ by simp)
  have kept : (front.map Prod.fst).filter
      (fun key => key ≠ call.key ∧ ¬ (serve call lru).2.has key) = [] := by
    refine List.filter_eq_nil_iff.2 fun key member passes => ?_
    obtain ⟨other, lost⟩ := of_decide_eq_true passes
    exact lost ((stays key other).2 member)
  rw [dropped, keys, List.filter_append, kept, List.nil_append]
  exact List.filter_cons_of_pos (decide_eq_true ⟨other, fun still =>
    lastOnly ((stays oldest other).1 still)⟩)

end Calls

/-! ## Whole histories -/

section Histories

variable {capacity : Nat} {call : CacheCall} {history : List CacheCall} {key : String}

theorem capacity_following (capacity : Nat) (history : List CacheCall) :
    (following capacity history).capacity = capacity := by
  induction history with
  | nil => rfl
  | cons call history ih => exact (moves _ call).capacity_eq.trans ih

theorem once_following (capacity : Nat) (history : List CacheCall) :
    (following capacity history).entries.Functional := by
  induction history with
  | nil => exact List.nodup_nil
  | cons call history ih => exact (moves _ call).once ih

theorem bounded_following (positive : 0 < capacity) (history : List CacheCall) :
    (following capacity history).entries.length ≤ capacity := by
  induction history with
  | nil => exact Nat.zero_le _
  | cons call history ih =>
    have before := capacity_following capacity history
    have kept := (moves (following capacity history) call).bounded
      (once_following capacity history) (before.symm ▸ positive) (before.symm ▸ ih)
    rwa [(moves _ call).capacity_eq, before] at kept

theorem lastUse_le (capacity : Nat) (key : String) (history : List CacheCall) :
    lastUse capacity key history ≤ history.length := by
  induction history with
  | nil => exact Nat.le_refl 0
  | cons call history ih =>
    rw [lastUse, List.length_cons]
    split
    · exact Nat.le_refl _
    · omega

theorem lastUse_of_ne (other : key ≠ call.key) :
    lastUse capacity key (call :: history) = lastUse capacity key history :=
  if_neg fun used => other used.1.symm

theorem lastUse_of_idle (idle : (following capacity history).uses call = false) (key : String) :
    lastUse capacity key (call :: history) = lastUse capacity key history :=
  if_neg fun used => by rw [idle] at used; cases used.2

theorem lastUse_of_uses (used : (following capacity history).uses call) :
    lastUse capacity call.key (call :: history) = history.length + 1 :=
  if_pos ⟨rfl, used⟩

/-- An entry that is used goes before those that are left of the others. -/
theorem ordered_use {others : Bindings String Post} {post : Post}
    (used : (following capacity history).uses call)
    (left : others.Sublist ((following capacity history).entries.erase call.key))
    (ordered : (following capacity history).entries.Pairwise fun newer older =>
      lastUse capacity older.1 history < lastUse capacity newer.1 history) :
    List.Pairwise (fun newer older : String × Post =>
      lastUse capacity older.1 (call :: history) < lastUse capacity newer.1 (call :: history))
      ((call.key, post) :: others) := by
  have elsewhere : ∀ entry ∈ others, entry.1 ≠ call.key := fun entry member =>
    Bindings.key_ne_of_mem_erase (left.subset member)
  refine List.pairwise_cons.2 ⟨fun entry member => ?_, ?_⟩
  · rw [lastUse_of_uses used, lastUse_of_ne (elsewhere entry member)]
    exact Nat.lt_succ_of_le (lastUse_le capacity entry.1 history)
  · refine (ordered.sublist (left.trans List.filter_sublist)).imp_of_mem ?_
    intro newer older new old before
    rwa [lastUse_of_ne (elsewhere older old), lastUse_of_ne (elsewhere newer new)]

theorem ordered_following (capacity : Nat) (history : List CacheCall) :
    (following capacity history).entries.Pairwise fun newer older =>
      lastUse capacity older.1 history < lastUse capacity newer.1 history := by
  induction history with
  | nil => exact List.Pairwise.nil
  | cons call history ih =>
    have move := moves (following capacity history) call
    rw [following]
    generalize (serve call (following capacity history)).2 = after at move ⊢
    cases move with
    | hit bound => exact ordered_use (by rw [uses, has, bound]; rfl) (List.Sublist.refl _) ih
    | miss unbound =>
      simp only [lastUse_of_idle (by rw [uses, has, unbound]; rfl)]
      exact ih
    | filed _ => exact ordered_use rfl (List.Sublist.refl _) ih
    | pushed unbound _ =>
      refine ordered_use rfl ?_ ih
      rw [CacheCall.key, Bindings.erase_of_get?_eq_none unbound]
      exact List.dropLast_sublist _
    | @removed user id =>
      have idle : (following capacity history).uses (.remove user id) = false := rfl
      simp only [lastUse_of_idle idle]
      exact ih.sublist List.filter_sublist

/-- What is held under a key is what was last filed there, unless that was dropped since. -/
theorem get?_following (capacity : Nat) (key : String) (history : List CacheCall) :
    (following capacity history).entries.get? key =
      if gone capacity key history then none else lastFiled key history := by
  induction history with
  | nil => rfl
  | cons call history ih =>
    by_cases here : key = call.key
    · -- under its own key a call never drops anything
      have kept : key ∉ (following capacity history).dropped call := fun member =>
        (mem_dropped.1 member).1 here
      rw [following, gone]
      cases call with
      | get user id =>
        simp only [CacheCall.files, lastFiled, kept, decide_false, Bool.false_or,
          Bool.false_eq_true, if_false]
        exact (get?_get _ _ key).trans ih
      | add user id post =>
        have here : Post.cacheKey user id = key := here.symm
        simp only [CacheCall.files, lastFiled, here, decide_true, if_true, Bool.false_eq_true,
          if_false, serve, get?_add_self]
      | remove user id =>
        have here : Post.cacheKey user id = key := here.symm
        simp only [lastFiled, here, if_true, ite_self, serve, get?_remove]
    · have elsewhere : call.files key = false ∧
          lastFiled key (call :: history) = lastFiled key history := by
        have other : call.key ≠ key := Ne.symm here
        cases call with
        | get user id => exact ⟨rfl, rfl⟩
        | add user id post => exact ⟨decide_eq_false other, if_neg other⟩
        | remove user id => exact ⟨rfl, if_neg other⟩
      rw [following, get?_serve here, ih, gone, elsewhere.1, elsewhere.2]
      by_cases lost : key ∈ (following capacity history).dropped call
      · simp only [lost, if_true, decide_true, Bool.true_or, Bool.false_eq_true, if_false]
      · simp only [lost, if_false, decide_false, Bool.false_or, Bool.false_eq_true]

/-- The last entry of a full cache is the one used longest ago. -/
theorem makesRoom_following (positive : 0 < capacity) (history : List CacheCall)
    (call : CacheCall) (new : (following capacity history).brings call)
    (full : (following capacity history).entries.length = capacity) :
    ∃ oldest, (following capacity history).has oldest ∧
      (∀ key, (following capacity history).has key → key ≠ oldest →
        lastUse capacity oldest history < lastUse capacity key history) ∧
      (following capacity history).dropped call = [oldest] := by
  rcases List.eq_nil_or_concat (following capacity history).entries with
    empty | ⟨front, ⟨oldest, copy⟩, split⟩
  · rw [empty] at full
    exact absurd full positive.ne
  rw [List.concat_eq_append] at split
  have ordered := ordered_following capacity history
  have atCapacity : (following capacity history).capacity ≤
      (following capacity history).entries.length := by
    rw [capacity_following, full]
  have once := once_following capacity history
  refine ⟨oldest, ?_, ?_, dropped_of_full once new atCapacity split⟩
  · rw [has, Bindings.isSome_get?_iff, split]
    simp
  · intro key bound other
    rw [has, Bindings.isSome_get?_iff, split, List.map_append, List.mem_append] at bound
    rw [split] at ordered
    rcases bound with before | last
    · obtain ⟨entry, member, rfl⟩ := List.mem_map.1 before
      exact (List.pairwise_append.1 ordered).2.2 entry member _ (List.mem_singleton_self _)
    · exact absurd (List.mem_singleton.1 last) other

theorem lookups_following (capacity : Nat) (history : List CacheCall) :
    (following capacity history).hits + (following capacity history).misses =
      history.countP CacheCall.looksUp := by
  induction history with
  | nil => rfl
  | cons call history ih =>
    have move := moves (following capacity history) call
    rw [following, List.countP_cons, ← ih]
    generalize (serve call (following capacity history)).2 = after at move ⊢
    cases move <;> simp only [CacheCall.looksUp, if_true, Bool.false_eq_true, if_false] <;> omega

theorem spares_following (positive : 0 < capacity) (history : List CacheCall) (call : CacheCall)
    (room : ¬ ((following capacity history).brings call ∧
      (following capacity history).entries.length = capacity)) :
    (following capacity history).dropped call = [] := by
  refine dropped_of_room fun ⟨new, full⟩ => room ⟨new, ?_⟩
  rw [capacity_following] at full
  exact Nat.le_antisymm (bounded_following positive history) full

/-- Whatever is counted over a history adds up when it does at every call. -/
theorem balance_following (positive : 0 < capacity) (history : List CacheCall) :
    total capacity (fun lru call => (lru.brings call).toNat) history =
      (following capacity history).entries.length + (following capacity history).evictions +
        total capacity (fun lru call => (lru.takesOut call).toNat) history := by
  induction history with
  | nil => rfl
  | cons call history ih =>
    have room : 0 < (following capacity history).capacity := by rwa [capacity_following]
    have step := (moves (following capacity history) call).balance
      (once_following capacity history) room
    rw [following, total, total]
    omega

theorem Moves.evictions_eq {lru after : Lru} (move : Moves lru call after) :
    after.evictions = lru.evictions +
      (decide (lru.brings call ∧ lru.capacity ≤ lru.entries.length)).toNat := by
  cases move with
  | hit _ => simp [brings]
  | miss _ => simp [brings]
  | @filed user id post room =>
    have free : ¬ (lru.brings (.add user id post) ∧ lru.capacity ≤ lru.entries.length) := by
      rintro ⟨new, full⟩
      rw [brings] at new
      rcases room with bound | free
      · rw [bound] at new
        cases new
      · omega
    rw [decide_eq_false free]
    rfl
  | @pushed user id post unbound full =>
    have new : lru.brings (.add user id post) := by rw [brings, has, unbound]; rfl
    rw [decide_eq_true ⟨new, full⟩]
    rfl
  | removed => simp [brings]

theorem evicted_following (positive : 0 < capacity) (history : List CacheCall) :
    (following capacity history).evictions =
      total capacity (fun lru call => (lru.dropped call).length) history := by
  induction history with
  | nil => rfl
  | cons call history ih =>
    have bounded := bounded_following positive history
    rw [following, (moves _ call).evictions_eq, total, ← ih, capacity_following]
    by_cases pushing : (following capacity history).brings call ∧
        capacity ≤ (following capacity history).entries.length
    · obtain ⟨_, _, _, dropped⟩ := makesRoom_following positive history call pushing.1
        (Nat.le_antisymm bounded pushing.2)
      rw [decide_eq_true pushing, dropped, Bool.toNat_true, List.length_singleton, Nat.add_comm]
    · have dropped := spares_following positive history call fun ⟨new, full⟩ =>
        pushing ⟨new, full.ge⟩
      rw [decide_eq_false pushing, dropped, Bool.toNat_false, List.length_nil, Nat.add_comm]

/-- After every history, the cache in memory has kept what was used last. -/
theorem keepsLatest (positive : 0 < capacity) (history : List CacheCall) :
    KeepsLatest capacity history where
  once := once_following capacity history
  bounded := bounded_following positive history
  ordered := ordered_following capacity history
  found _ _ := (get_answer _ _).trans (get?_following capacity _ history)
  makesRoom := makesRoom_following positive history
  spares := spares_following positive history
  lookups := lookups_following capacity history
  evicted := evicted_following positive history
  balance := balance_following positive history

end Histories

end Lru

/-! ## A shelf with times -/

/-- Entries that bear the number of the call that used them last, in no order. -/
structure Shelf where
  capacity : Nat
  calls : Nat := 0
  entries : Bindings String (Post × Nat) := []
  hits : Nat := 0
  misses : Nat := 0
  evictions : Nat := 0

namespace Shelf

/-- Places an entry that is used by the current call. -/
def place (shelf : Shelf) (key : String) (post : Post) : Shelf :=
  { shelf with entries := shelf.entries.put key (post, shelf.calls) }

/-- Drops the entry with the least number. -/
def makeRoom (shelf : Shelf) : Shelf :=
  match shelf.entries.argmin fun entry => entry.2.2 with
  | some oldest =>
    { shelf with entries := shelf.entries.erase oldest.1, evictions := shelf.evictions + 1 }
  | none => shelf

/-- Serves a call whose number has been counted. -/
def answer : (call : CacheCall) → Shelf → call.Answer × Shelf
  | .get user id, shelf =>
    match shelf.entries.get? (Post.cacheKey user id) with
    | some (post, _) =>
      (some post, { shelf.place (Post.cacheKey user id) post with hits := shelf.hits + 1 })
    | none => (none, { shelf with misses := shelf.misses + 1 })
  | .add user id post, shelf =>
    let key := Post.cacheKey user id
    let new := (shelf.entries.get? key).isNone
    let room := if new ∧ shelf.capacity ≤ shelf.entries.length then shelf.makeRoom else shelf
    ((), room.place key post)
  | .remove user id, shelf =>
    ((), { shelf with entries := shelf.entries.erase (Post.cacheKey user id) })

/-- Serves a call. -/
def serve (call : CacheCall) (shelf : Shelf) : call.Answer × Shelf :=
  answer call { shelf with calls := shelf.calls + 1 }

/-- What has been counted. -/
def stats (shelf : Shelf) : CacheStats :=
  ⟨shelf.hits, shelf.misses, shelf.entries.length, shelf.evictions⟩

theorem makeRoom_calls (shelf : Shelf) : shelf.makeRoom.calls = shelf.calls := by
  rw [makeRoom]
  split <;> rfl

/-- Every call is counted. -/
theorem serve_calls (call : CacheCall) (shelf : Shelf) :
    (serve call shelf).2.calls = shelf.calls + 1 := by
  cases call with
  | get user id =>
    simp only [serve, answer]
    split <;> rfl
  | add user id post =>
    simp only [serve, answer, place]
    split
    · exact makeRoom_calls _
    · rfl
  | remove user id => rfl

/-- The shelf as a cache. -/
def cache : Cache Shelf := ⟨"shelf", serve, stats⟩

/-- Entries with the times at which they were used. -/
def stamped (times : String → Nat) (entries : Bindings String Post) :
    Bindings String (Post × Nat) :=
  entries.map fun entry => (entry.1, entry.2, times entry.1)

section Stamped

variable {times times' : String → Nat} {entries front : Bindings String Post} {key : String}

theorem get?_stamped (times : String → Nat) (entries : Bindings String Post) (key : String) :
    (stamped times entries).get? key = (entries.get? key).map fun post => (post, times key) := by
  induction entries with
  | nil => rfl
  | cons entry rest ih =>
    obtain ⟨k, post⟩ := entry
    rw [stamped] at ih ⊢
    rw [List.map_cons, Bindings.get?, Bindings.get?, ih]
    by_cases same : k = key
    · rw [if_pos same, if_pos same, same, Option.map_some]
    · rw [if_neg same, if_neg same]

theorem erase_stamped : (stamped times entries).erase key = stamped times (entries.erase key) :=
  List.filter_map

theorem stamped_congr (same : ∀ entry ∈ entries, times entry.1 = times' entry.1) :
    stamped times entries = stamped times' entries :=
  List.map_congr_left fun entry member => by rw [same entry member]

theorem once_stamped (once : entries.Functional) : (stamped times entries).Functional := by
  rw [Bindings.Functional, stamped, List.map_map]
  exact once

end Stamped

/-- Whether a shelf shows what the cache in memory holds, used at given times. -/
structure Shows (shelf : Shelf) (lru : Lru) (times : String → Nat) : Prop where
  capacity_eq : shelf.capacity = lru.capacity
  entries_perm : shelf.entries.Perm (stamped times lru.entries)
  hits_eq : shelf.hits = lru.hits
  misses_eq : shelf.misses = lru.misses
  evictions_eq : shelf.evictions = lru.evictions

section Simulation

variable {shelf : Shelf} {lru after : Lru} {times times' : String → Nat} {call : CacheCall}
  {entries front : Bindings String Post} {key : String}

/-- Putting an entry with its time is using it at that time. -/
theorem perm_put_stamped {shelved : Bindings String (Post × Nat)} {time : Nat} (post : Post)
    (once : entries.Functional) (alike : shelved.Perm (stamped times entries))
    (now : times' key = time) (elsewhere : ∀ other, other ≠ key → times' other = times other) :
    (shelved.put key (post, time)).Perm (stamped times' ((key, post) :: entries.erase key)) := by
  have distinct : shelved.Functional := ((alike.map Prod.fst).nodup_iff).2 (once_stamped once)
  have others : (shelved.erase key).Perm (stamped times' (entries.erase key)) := by
    have same : stamped times' (entries.erase key) = stamped times (entries.erase key) :=
      stamped_congr fun entry member => elsewhere entry.1 (Bindings.key_ne_of_mem_erase member)
    rw [same, ← erase_stamped]
    exact alike.filter _
  have here : stamped times' ((key, post) :: entries.erase key) =
      (key, post, time) :: stamped times' (entries.erase key) := by
    rw [← now]
    rfl
  rw [here]
  exact (distinct.perm_put key (post, time)).trans (others.cons _)

/-- Making room drops the entry that was used longest ago. -/
theorem makeRoom_eq {oldest : String} {copy : Post}
    (alike : shelf.entries.Perm (stamped times (front ++ [(oldest, copy)])))
    (later : ∀ entry ∈ front, times oldest < times entry.1) :
    shelf.makeRoom =
      { shelf with entries := shelf.entries.erase oldest, evictions := shelf.evictions + 1 } := by
  have last : (oldest, copy, times oldest) ∈ shelf.entries :=
    alike.mem_iff.2 (List.mem_map.2 ⟨(oldest, copy), by simp, rfl⟩)
  rw [makeRoom]
  cases least : shelf.entries.argmin fun entry => entry.2.2 with
  | none =>
    rw [List.argmin_eq_none] at least
    rw [least] at last
    cases last
  | some entry =>
    have before : entry.2.2 ≤ times oldest := List.le_of_mem_argmin last least
    obtain ⟨kept, member, rfl⟩ := List.mem_map.1 (alike.mem_iff.1 (List.argmin_mem least))
    have same : kept.1 = oldest := by
      rcases List.mem_append.1 member with inFront | isLast
      · exact absurd (later kept inFront) (Nat.not_lt.2 before)
      · rw [List.mem_singleton.1 isLast]
    simp only [same]

theorem Shows.stats_eq (shows : shelf.Shows lru times) : shelf.stats = lru.stats := by
  have length := shows.entries_perm.length_eq
  rw [stamped, List.length_map] at length
  rw [stats, Lru.stats, shows.hits_eq, shows.misses_eq, length, shows.evictions_eq]

theorem Shows.found (shows : shelf.Shows lru times) (once : lru.entries.Functional)
    (key : String) :
    shelf.entries.get? key = (lru.entries.get? key).map fun post => (post, times key) := by
  have distinct : shelf.entries.Functional :=
    ((shows.entries_perm.map Prod.fst).nodup_iff).2 (once_stamped once)
  rw [distinct.get?_perm shows.entries_perm, get?_stamped]

/-- The shelf answers as the cache in memory does. -/
theorem Shows.answer (shows : shelf.Shows lru times) (once : lru.entries.Functional)
    (call : CacheCall) : (serve call shelf).1 = (Lru.serve call lru).1 := by
  cases call with
  | get user id =>
    simp only [serve, Shelf.answer, Lru.serve, Lru.get_answer, shows.found once]
    cases lru.entries.get? (Post.cacheKey user id) <;> rfl
  | add user id post => rfl
  | remove user id => rfl

/-- The shelf shows the cache in memory again after a call that both serve. -/
theorem Shows.next (shows : shelf.Shows lru times) (once : lru.entries.Functional)
    (ordered : lru.entries.Pairwise fun newer older => times older.1 < times newer.1)
    (positive : 0 < lru.capacity) (move : Lru.Moves lru call after)
    (now : lru.uses call → times' call.key = shelf.calls + 1)
    (idle : lru.uses call = false → times' = times)
    (elsewhere : ∀ other, other ≠ call.key → times' other = times other) :
    (serve call shelf).2.Shows after times' := by
  have length : shelf.entries.length = lru.entries.length :=
    congrArg CacheStats.entries shows.stats_eq
  cases move with
  | @hit user id post bound =>
    have used : lru.uses (.get user id) := by rw [Lru.uses, Lru.has, bound]; rfl
    simp only [serve, Shelf.answer, shows.found once, bound, Option.map_some]
    refine ⟨shows.capacity_eq, ?_, congrArg (· + 1) shows.hits_eq, shows.misses_eq,
      shows.evictions_eq⟩
    exact perm_put_stamped post once shows.entries_perm (now used) elsewhere
  | @miss user id unbound =>
    have unused : lru.uses (.get user id) = false := by rw [Lru.uses, Lru.has, unbound]; rfl
    simp only [serve, Shelf.answer, shows.found once, unbound, Option.map_none]
    exact ⟨shows.capacity_eq, idle unused ▸ shows.entries_perm, shows.hits_eq,
      congrArg (· + 1) shows.misses_eq, shows.evictions_eq⟩
  | @filed user id post room =>
    have fits : ¬ ((shelf.entries.get? (Post.cacheKey user id)).isNone ∧
        shelf.capacity ≤ shelf.entries.length) := by
      rintro ⟨new, full⟩
      rw [shows.found once, Option.isNone_map] at new
      rw [shows.capacity_eq, length] at full
      rcases room with bound | free
      · rw [Lru.has] at bound
        simp_all
      · omega
    simp only [serve, Shelf.answer, if_neg fits]
    refine ⟨shows.capacity_eq, ?_, shows.hits_eq, shows.misses_eq, shows.evictions_eq⟩
    exact perm_put_stamped post once shows.entries_perm (now rfl) elsewhere
  | @pushed user id post unbound full =>
    have overfull : (shelf.entries.get? (Post.cacheKey user id)).isNone ∧
        shelf.capacity ≤ shelf.entries.length := by
      rw [shows.found once, unbound, shows.capacity_eq, length]
      exact ⟨rfl, full⟩
    rcases List.eq_nil_or_concat lru.entries with empty | ⟨front, ⟨oldest, copy⟩, split⟩
    · rw [empty] at full
      exact absurd positive (Nat.not_lt.2 full)
    rw [List.concat_eq_append] at split
    rw [split] at ordered
    have later : ∀ entry ∈ front, times oldest < times entry.1 := fun entry member =>
      (List.pairwise_append.1 ordered).2.2 entry member _ (List.mem_singleton_self _)
    have alike := shows.entries_perm
    rw [split] at alike
    have roomy : ({ shelf with calls := shelf.calls + 1 } : Shelf).makeRoom =
        { shelf with
          calls := shelf.calls + 1
          entries := shelf.entries.erase oldest
          evictions := shelf.evictions + 1 } :=
      makeRoom_eq alike later
    simp only [serve, Shelf.answer, if_pos overfull, roomy]
    refine ⟨shows.capacity_eq, ?_, shows.hits_eq, shows.misses_eq,
      congrArg (· + 1) shows.evictions_eq⟩
    -- the entries that stay are those before the last, and the new key is not among them
    have onceAll : Bindings.Functional (front ++ [(oldest, copy)]) := split ▸ once
    have onceFront : Bindings.Functional front := onceAll.sublist (List.sublist_append_left _ _)
    have left : (Bindings.erase oldest shelf.entries).Perm (stamped times front) := by
      rw [← Bindings.erase_append_last onceAll, ← erase_stamped]
      exact alike.filter _
    have alone : Bindings.erase (Post.cacheKey user id) front = front := by
      refine Bindings.erase_of_get?_eq_none (Bindings.get?_eq_none_iff.2 fun member => ?_)
      rw [Bindings.get?_eq_none_iff, split, List.map_append] at unbound
      exact unbound (List.mem_append_left _ member)
    have placed := perm_put_stamped post onceFront left (now rfl) elsewhere
    rw [split, List.dropLast_concat]
    rwa [CacheCall.key, alone] at placed
  | @removed user id =>
    refine ⟨shows.capacity_eq, ?_, shows.hits_eq, shows.misses_eq, shows.evictions_eq⟩
    rw [idle rfl, ← erase_stamped]
    exact shows.entries_perm.filter _

end Simulation

end Shelf

/-! ## What the cache in memory is -/

/-- What a call of a cache gives: its answer, and what has been counted then. -/
def Cache.tell {τ : Type} (cache : Cache τ) (call : CacheCall) (t : τ) :
    (((call : CacheCall) × call.Answer) × CacheStats) × τ :=
  ((⟨call, (cache.serve call t).1⟩, cache.stats (cache.serve call t).2), (cache.serve call t).2)

/-- The cache in memory and the shelf give the same, call by call. -/
theorem lru_tell_eq {capacity : Nat} (positive : 0 < capacity) (calls : List CacheCall) :
    replies Lru.cache.tell calls { capacity } = replies Shelf.cache.tell calls { capacity } := by
  let related : Lru → Shelf → Prop := fun lru shelf => ∃ history,
    lru = Lru.following capacity history ∧ shelf.calls = history.length ∧
      shelf.Shows lru (Lru.lastUse capacity · history)
  refine replies_eq related ?_ calls ⟨[], rfl, rfl, rfl, .nil, rfl, rfl, rfl⟩
  rintro call _ shelf ⟨history, rfl, counted, shows⟩
  have once := Lru.once_following capacity history
  have room : 0 < (Lru.following capacity history).capacity := by rwa [Lru.capacity_following]
  have next := shows.next once (Lru.ordered_following capacity history) room (Lru.moves _ call)
    (fun used => (Lru.lastUse_of_uses used).trans (congrArg (· + 1) counted.symm))
    (fun idle => funext (Lru.lastUse_of_idle idle))
    (fun other elsewhere => Lru.lastUse_of_ne elsewhere)
  refine ⟨?_, call :: history, rfl, ?_, next⟩
  · exact Prod.ext (congrArg (Sigma.mk call) (shows.answer once call).symm) next.stats_eq.symm
  · exact (Shelf.serve_calls call shelf).trans (congrArg (· + 1) counted)

/-- **The cache in memory, of any capacity but none, answers and counts like a shelf that drops the
entry with the earliest time, and after every history has kept what was used last.** -/
theorem lru_leastRecentlyUsed (capacity : Nat) (positive : 0 < capacity) :
    (∀ calls, replies Lru.cache.tell calls { capacity } =
      replies Shelf.cache.tell calls { capacity }) ∧
    ∀ history, Lru.KeepsLatest capacity history :=
  ⟨lru_tell_eq positive, Lru.keepsLatest positive⟩

/-- Two keys are filed, the first is looked up, a third is filed and drops the second; then the
first is filed anew and taken out. -/
def visits : List CacheCall :=
  let post (data : String) : Post := ⟨"u", "i", data, .epoch, .epoch⟩
  [.add "u" "a" (post "tea"), .add "u" "b" (post "milk"), .get "u" "a", .add "u" "c" (post "rum"),
    .get "u" "b", .add "u" "a" (post "mate"), .remove "u" "a", .get "u" "c"]

theorem lru_leastRecentlyUsed_visits :
    0 < 2 ∧ replies Lru.cache.tell visits { capacity := 2 } =
      replies Shelf.cache.tell visits { capacity := 2 } ∧
    Lru.KeepsLatest 2 visits.reverse ∧
    (Lru.following 2 visits.reverse).stats = ⟨2, 1, 1, 1⟩ :=
  have kept := lru_leastRecentlyUsed 2 (by decide)
  ⟨by decide, kept.1 visits, kept.2 visits.reverse, by decide⟩

end PostStore
