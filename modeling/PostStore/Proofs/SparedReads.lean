import Mathlib.Data.Finset.Card
import PostStore.Proofs.FailedCalls
import PostStore.Proofs.LeastRecentlyUsed
/-!
# Lookups that the cache in memory spares the store

With a count between the cache in memory and the store, one sees which calls reach the store.  All
but lookups do.  A lookup is spared only if the post asked for was created or read before and its
cache key was not cleared since; and it is spared then, if no other post took the key over and fewer
other keys were used since than the cache has room for.
-/

namespace PostStore

open Coordinator

variable {σ κ : Type}

/-! ## A store that is watched -/

/-- A store that counts the calls that reach it, behind the cache in memory. -/
def Store.watched (store : Store σ κ) : Store ((σ × CallCounts) × Lru) κ :=
  ((store.within .first).counted .second).cachedBy Lru.cache

/-- Whether a lookup is answered without the store. -/
def Store.Spared (store : Store σ κ) (state : (σ × CallCounts) × Lru) (user id : String) : Prop :=
  (store.watched.serve (.read user id) state).2.1.2 = state.1.2

/-- The posts that the store gives in sound states carry what was asked for. -/
structure Store.CarriesIds (store : Store σ κ) (sound : σ → Prop) : Prop where
  keeps_sound : ∀ call s, sound s → sound (store.serve call s).2
  carries : ∀ call s, sound s → Recorded.CarriesIds (⟨call, (store.serve call s).1⟩ : Recorded κ)

theorem Store.Healthy.carriesIds {store : Store σ κ} {sound : σ → Prop} {held : σ → Catalogue}
    (healthy : store.Healthy sound held) : store.CarriesIds sound where
  keeps_sound := healthy.keeps_sound
  carries call s good := by
    cases call with
    | create user data fresh =>
      rw [(healthy.create user data fresh s good).1]
      exact rfl
    | read user id =>
      cases answer : (store.serve (.read user id) s).1 with
      | error e => trivial
      | ok post => exact owns_iff.1 (healthy.read_own good answer).2
    | readAll user => trivial
    | update user id data clock => trivial
    | delete user id => trivial

/-! ## What the answers tell -/

namespace Recorded

/-- The user and the identifier of a post that a call has created or read. -/
def given? : Recorded κ → Option (String × String)
  | ⟨.create user _ _, .ok post⟩ => some (user, post.id)
  | ⟨.read user id, .ok _⟩ => some (user, id)
  | _ => none

/-- The cache key that a call has created or read, or tried to read. -/
def used? : Recorded κ → Option String
  | ⟨.create user _ _, .ok post⟩ => some (Post.cacheKey user post.id)
  | ⟨.read user id, _⟩ => some (Post.cacheKey user id)
  | _ => none

/-- Whether a call clears a cache key: a removal does, and a change if it succeeds. -/
def Clears (key : String) : Recorded κ → Prop
  | ⟨.delete user id, _⟩ => Post.cacheKey user id = key
  | ⟨.update user id _ _, .ok _⟩ => Post.cacheKey user id = key
  | _ => False

/-- Whether a call has created or read another post than the one of a user and an identifier, under
the same cache key. -/
def TakesOver (user id : String) (reply : Recorded κ) : Prop :=
  ∃ u i, reply.given? = some (u, i) ∧ (u, i) ≠ (user, id) ∧
    Post.cacheKey u i = Post.cacheKey user id

end Recorded

/-- The cache keys, but for one, that calls have created or read, or tried to read. -/
def otherKeys (key : String) (trace : List (Recorded κ)) : Finset String :=
  (trace.filterMap Recorded.used?).toFinset.erase key

/-- What reaches a watched store after some calls, and what does not. -/
structure Store.SparesReads (store : Store σ κ) (capacity : Nat) (s : σ) (calls : List Call) :
    Prop where
  /-- Every call but a lookup reaches the store once. -/
  once : ∀ call, (∀ user id, call ≠ .read user id) →
    let state := store.watched.after calls ((s, {}), { capacity })
    (store.watched.serve call state).2.1.2 = state.1.2.count call
  /-- A lookup reaches it at most once. -/
  atMostOnce : ∀ user id,
    let state := store.watched.after calls ((s, {}), { capacity })
    store.Spared state user id ∨
      (store.watched.serve (.read user id) state).2.1.2 = state.1.2.count (.read user id)
  /-- Before a lookup that does not reach it, the post was created or read, and its cache key was
  not cleared since. -/
  preceded : ∀ user id,
    store.Spared (store.watched.after calls ((s, {}), { capacity })) user id →
      ∃ (earlier : List (Recorded κ)) (mark : Recorded κ) (between : List (Recorded κ)),
        replies store.watched.reply calls ((s, {}), { capacity }) = earlier ++ mark :: between ∧
          mark.given? = some (user, id) ∧
          ∀ reply ∈ between, ¬ reply.Clears (Post.cacheKey user id)
  /-- When the post was created or read, its cache key not cleared since, no other post took it
  over, and fewer other keys were used than there is room for, a lookup does not reach the store. -/
  spared : ∀ user id (earlier : List (Recorded κ)) (mark : Recorded κ)
    (between : List (Recorded κ)),
    replies store.watched.reply calls ((s, {}), { capacity }) = earlier ++ mark :: between →
      mark.given? = some (user, id) →
      (∀ reply ∈ between,
        ¬ reply.Clears (Post.cacheKey user id) ∧ ¬ reply.TakesOver user id) →
      (otherKeys (Post.cacheKey user id) between).card < capacity →
        store.Spared (store.watched.after calls ((s, {}), { capacity })) user id

/-! ## One call -/

/-- The cache after some calls. -/
def Lru.serveAll (calls : List CacheCall) (lru : Lru) : Lru :=
  calls.foldl (fun lru call => (serve call lru).2) lru

/-- What a call comes to over a store and the cache in memory: what is answered, whether the store
is reached, and what the cache is asked. -/
inductive Passes (store : Store σ κ) (s : σ) (lru : Lru) :
    Recorded κ → Bool → List CacheCall → Prop where
  | hit {user id : String} {post : Post}
      (found : lru.entries.get? (Post.cacheKey user id) = some post)
      (own : owns user id post = true) :
      Passes store s lru ⟨.read user id, .ok post⟩ false [.get user id]
  | readPast {user id : String} {post : Post}
      (miss : ∀ copy, lru.entries.get? (Post.cacheKey user id) = some copy →
        ¬ owns user id copy = true)
      (answer : (store.serve (.read user id) s).1 = .ok post) :
      Passes store s lru ⟨.read user id, .ok post⟩ true [.get user id, .add user id post]
  | notFound {user id : String} {e : StoreError}
      (miss : ∀ copy, lru.entries.get? (Post.cacheKey user id) = some copy →
        ¬ owns user id copy = true) :
      Passes store s lru ⟨.read user id, .error e⟩ true [.get user id]
  | created {user data : String} {fresh : Fresh} {post : Post}
      (answer : (store.serve (.create user data fresh) s).1 = .ok post) :
      Passes store s lru ⟨.create user data fresh, .ok post⟩ true [.add user post.id post]
  | notCreated {user data : String} {fresh : Fresh} {e : StoreError} :
      Passes store s lru ⟨.create user data fresh, .error e⟩ true []
  | listed {user : String} {answer : Except StoreError κ} :
      Passes store s lru ⟨.readAll user, answer⟩ true []
  | updated {user id data : String} {clock : ClockReading} {post : Post} :
      Passes store s lru ⟨.update user id data clock, .ok post⟩ true [.remove user id]
  | notUpdated {user id data : String} {clock : ClockReading} {e : StoreError} :
      Passes store s lru ⟨.update user id data clock, .error e⟩ true []
  | deleted {user id : String} {answer : Except StoreError Unit} :
      Passes store s lru ⟨.delete user id, answer⟩ true [.remove user id]

/-- Every call passes in one of these ways, and that is all that happens to the store, the counts
and the cache. -/
theorem Store.passes (store : Store σ κ) (call : Call) (s : σ) (counts : CallCounts) (lru : Lru) :
    ∃ reached asked,
      Passes store s lru ⟨call, (store.watched.serve call ((s, counts), lru)).1⟩ reached asked ∧
      (store.watched.serve call ((s, counts), lru)).2 =
        (if reached then ((store.serve call s).2, counts.count call) else (s, counts),
          lru.serveAll asked) := by
  have lookup (user id : String) :
      (Lru.cache.serve (.get user id) lru).1 = lru.entries.get? (Post.cacheKey user id) :=
    Lru.get_answer lru _
  have counted (call : Call) : ((store.within .first).counted .second).serve call (s, counts) =
      ((store.serve call s).1, (store.serve call s).2, counts.count call) := rfl
  unfold Store.watched
  cases call with
  | create user data fresh =>
    rw [serve_create_cachedBy, counted]
    cases answer : (store.serve (.create user data fresh) s).1 with
    | error e => exact ⟨true, _, .notCreated, rfl⟩
    | ok post => exact ⟨true, _, .created answer, rfl⟩
  | read user id =>
    by_cases hit : ∃ post, lru.entries.get? (Post.cacheKey user id) = some post ∧
        owns user id post = true
    · obtain ⟨post, found, own⟩ := hit
      rw [serve_read_cachedBy_hit _ _ _ _ ((lookup user id).trans found) own]
      exact ⟨false, _, .hit found own, rfl⟩
    · have miss : ∀ copy, lru.entries.get? (Post.cacheKey user id) = some copy →
          ¬ owns user id copy = true := fun copy found own => hit ⟨copy, found, own⟩
      rw [serve_read_cachedBy_miss _ _ _ _ fun copy found =>
        miss copy ((lookup user id).symm.trans found), run_readThrough, counted]
      cases answer : (store.serve (.read user id) s).1 with
      | error e => exact ⟨true, _, .notFound miss, rfl⟩
      | ok post => exact ⟨true, _, .readPast miss answer, rfl⟩
  | readAll user => exact ⟨true, _, .listed, rfl⟩
  | update user id data clock =>
    rw [serve_update_cachedBy, counted]
    cases answer : (store.serve (.update user id data clock) s).1 with
    | error e => exact ⟨true, _, .notUpdated, rfl⟩
    | ok post => exact ⟨true, _, .updated, rfl⟩
  | delete user id => exact ⟨true, _, .deleted, rfl⟩

/-! ## What is kept from call to call -/

theorem CallCounts.count_ne (counts : CallCounts) (call : Call) : counts.count call ≠ counts := by
  intro same
  unfold count at same
  split at same
  · exact absurd (congrArg CallCounts.reads same) (Nat.succ_ne_self _)
  · exact absurd (congrArg CallCounts.writes same) (Nat.succ_ne_self _)

namespace Lru

variable {lru : Lru} {call : CacheCall} {key : String} {post : Post}

theorem once_serveAll (calls : List CacheCall) :
    ∀ {lru : Lru}, lru.entries.Functional → (lru.serveAll calls).entries.Functional := by
  induction calls with
  | nil => exact fun once => once
  | cons call calls ih => exact fun once => ih ((moves _ call).once once)

theorem capacity_serveAll (calls : List CacheCall) :
    ∀ lru : Lru, (lru.serveAll calls).capacity = lru.capacity := by
  induction calls with
  | nil => exact fun _ => rfl
  | cons call calls ih => exact fun lru => (ih _).trans (moves lru call).capacity_eq

/-! ### An entry and those used after it -/

/-- The post has an entry under the key, and those before it are under some keys only. -/
def Near (entries : Bindings String Post) (key : String) (post : Post) (used : Finset String) :
    Prop :=
  ∃ newer older, entries = newer ++ (key, post) :: older ∧ ∀ entry ∈ newer, entry.1 ∈ used

section Near

variable {entries : Bindings String Post} {used : Finset String} {key' : String} {copy : Post}

theorem near_first (key : String) (post : Post) (entries : Bindings String Post)
    (used : Finset String) : Near ((key, post) :: entries) key post used :=
  ⟨[], entries, rfl, fun _ member => nomatch member⟩

theorem Near.get? (near : Near entries key post used) (outside : key ∉ used) :
    entries.get? key = some post := by
  obtain ⟨newer, older, rfl, within⟩ := near
  induction newer with
  | nil => exact if_pos rfl
  | cons entry newer ih =>
    have other : entry.1 ≠ key := fun same => outside (same ▸ within entry List.mem_cons_self)
    rw [List.cons_append, Bindings.get?, if_neg other]
    exact ih fun later member => within later (List.mem_cons_of_mem entry member)

theorem Near.cons (near : Near entries key post used) (known : key' ∈ used) :
    Near ((key', copy) :: entries) key post used := by
  obtain ⟨newer, older, rfl, within⟩ := near
  refine ⟨(key', copy) :: newer, older, rfl, ?_⟩
  rintro entry (_ | ⟨_, member⟩)
  · exact known
  · exact within entry member

theorem Near.erase (near : Near entries key post used) (other : key' ≠ key) :
    Near (Bindings.erase key' entries) key post used := by
  obtain ⟨newer, older, rfl, within⟩ := near
  refine ⟨Bindings.erase key' newer, Bindings.erase key' older, ?_, ?_⟩
  · simp only [Bindings.erase, List.filter_append]
    rw [List.filter_cons_of_pos (by simpa using other.symm)]
  · exact fun entry member => within entry (List.mem_of_mem_filter member)

/-- Among as many entries as there are keys, and one more, the entry is not the last: the others
before it have keys of their own, and so would a new one. -/
theorem Near.dropLast (near : Near entries key post used) (once : entries.Functional)
    (unbound : entries.get? key' = none) (known : key' ∈ used) (many : used.card < entries.length) :
    Near entries.dropLast key post used := by
  obtain ⟨newer, older, rfl, within⟩ := near
  have keys : (key' :: newer.map Prod.fst).Nodup := by
    have fresh := Bindings.get?_eq_none_iff.1 unbound
    have distinct : (newer.map Prod.fst).Nodup :=
      List.Nodup.sublist ((List.sublist_append_left newer _).map Prod.fst) once
    refine List.nodup_cons.2 ⟨fun member => fresh ?_, distinct⟩
    rw [List.map_append]
    exact List.mem_append_left _ member
  have few : newer.length + 1 ≤ used.card := by
    have inside : (key' :: newer.map Prod.fst).toFinset ⊆ used := by
      intro k member
      rcases List.mem_cons.1 (List.mem_toFinset.1 member) with rfl | before
      · exact known
      · obtain ⟨entry, listed, rfl⟩ := List.mem_map.1 before
        exact within entry listed
    have card := Finset.card_le_card inside
    rwa [List.toFinset_card_of_nodup keys, List.length_cons, List.length_map] at card
  have more : older ≠ [] := by
    rintro rfl
    rw [List.length_append, List.length_singleton] at many
    omega
  refine ⟨newer, older.dropLast, ?_, within⟩
  rw [List.dropLast_append_of_ne_nil (List.cons_ne_nil _ _), List.dropLast_cons_of_ne_nil more]

/-- A use of another key, one of the few, leaves the entry near. -/
theorem Near.elsewhere (near : Near lru.entries key post used) (once : lru.entries.Functional)
    (few : used.card < lru.capacity) (other : call.key ≠ key) (known : call.key ∈ used) :
    Near (serve call lru).2.entries key post used := by
  have move := moves lru call
  generalize (serve call lru).2 = after at move
  cases move with
  | hit bound => exact (near.erase other).cons known
  | miss unbound => exact near
  | filed room => exact (near.erase other).cons known
  | pushed unbound full =>
    exact (near.dropLast once unbound known (Nat.lt_of_lt_of_le few full)).cons known
  | removed => exact near.erase other

/-- An entry that is looked up comes to the front. -/
theorem near_lookup {user id : String}
    (bound : lru.entries.get? (Post.cacheKey user id) = some post) (used : Finset String) :
    Near (serve (.get user id) lru).2.entries (Post.cacheKey user id) post used := by
  rw [serve, get, bound]
  exact near_first _ _ _ _

/-- An entry that is added comes to the front. -/
theorem near_add (lru : Lru) (user id : String) (post : Post) (used : Finset String) :
    Near (serve (.add user id post) lru).2.entries (Post.cacheKey user id) post used := by
  rcases entries_add lru (Post.cacheKey user id) post with entries | entries
  · exact entries ▸ near_first _ _ _ _
  · exact entries ▸ near_first _ _ _ _

end Near

end Lru

section Runs

variable {store : Store σ κ} {sound : σ → Prop} {capacity : Nat}
  {state : (σ × CallCounts) × Lru}

/-- The store is sound, and the cache has its capacity and each key once. -/
structure Running (sound : σ → Prop) (capacity : Nat) (state : (σ × CallCounts) × Lru) : Prop where
  good : sound state.1.1
  once : state.2.entries.Functional
  capacity_eq : state.2.capacity = capacity

theorem Running.serve (carries : store.CarriesIds sound) (running : Running sound capacity state)
    (call : Call) : Running sound capacity (store.watched.serve call state).2 := by
  obtain ⟨⟨s, counts⟩, lru⟩ := state
  obtain ⟨reached, asked, -, after⟩ := store.passes call s counts lru
  rw [after]
  refine ⟨?_, Lru.once_serveAll asked running.once,
    (Lru.capacity_serveAll asked lru).trans running.capacity_eq⟩
  cases reached with
  | true => exact carries.keeps_sound call s running.good
  | false => exact running.good

/-! ## Where entries come from -/

/-- In a trace a post was created or read that has the key, and the key was not cleared since. -/
def Traced (trace : List (Recorded κ)) (key : String) (post : Post) : Prop :=
  key = post.key ∧ ∃ earlier mark between, trace = earlier ++ mark :: between ∧
    mark.given? = some (post.user, post.id) ∧ ∀ reply ∈ between, ¬ reply.Clears key

theorem Traced.append {trace : List (Recorded κ)} {key : String} {post : Post}
    (traced : Traced trace key post) {reply : Recorded κ} (leaves : ¬ reply.Clears key) :
    Traced (trace ++ [reply]) key post := by
  obtain ⟨own, earlier, mark, between, rfl, given, quiet⟩ := traced
  refine ⟨own, earlier, mark, between ++ [reply], by simp, given, ?_⟩
  intro later member
  rcases List.mem_append.1 member with before | last
  · exact quiet later before
  · exact (List.mem_singleton.1 last).symm ▸ leaves

/-- What a call has just created or read is traced. -/
theorem traced_last (trace : List (Recorded κ)) {mark : Recorded κ} {user id : String}
    {post : Post} (given : mark.given? = some (user, id)) (own : owns user id post = true) :
    Traced (trace ++ [mark]) (Post.cacheKey user id) post := by
  obtain ⟨rfl, rfl⟩ := owns_iff.1 own
  exact ⟨rfl, trace, mark, [], rfl, given, fun _ member => nomatch member⟩

theorem Lru.of_get?_add {lru : Lru} {key key' : String} {added post : Post}
    (found : (lru.add key added).entries.get? key' = some post) :
    (key' = key ∧ post = added) ∨ lru.entries.get? key' = some post := by
  by_cases here : key = key'
  · subst here
    rw [get?_add_self] at found
    exact .inl ⟨rfl, (Option.some.inj found).symm⟩
  · exact .inr (get?_of_add here found)

theorem Lru.of_get?_remove {lru : Lru} {key key' : String} {post : Post}
    (found : (lru.remove key).entries.get? key' = some post) :
    key ≠ key' ∧ lru.entries.get? key' = some post := by
  rw [get?_remove] at found
  split at found
  · cases found
  · rename_i other
    exact ⟨other, found⟩

/-- An entry was there before the call, which leaves its key, or is what the call has given. -/
theorem Passes.entry {s : σ} {lru : Lru} {reply : Recorded κ} {reached : Bool}
    {asked : List CacheCall} (passes : Passes store s lru reply reached asked)
    (carries : store.CarriesIds sound) (good : sound s) {key : String} {post : Post}
    (found : (lru.serveAll asked).entries.get? key = some post) :
    (lru.entries.get? key = some post ∧ ¬ reply.Clears key) ∨
      ∃ user id, key = Post.cacheKey user id ∧ reply.given? = some (user, id) ∧
        owns user id post = true := by
  cases passes with
  | hit _ own => exact .inl ⟨(Lru.get?_get lru _ key).symm.trans found, id⟩
  | @readPast user id copy miss answer =>
    rcases Lru.of_get?_add found with ⟨rfl, rfl⟩ | before
    · have own := carries.carries (.read user id) s good
      rw [answer] at own
      exact .inr ⟨user, id, rfl, rfl, owns_iff.2 own⟩
    · exact .inl ⟨(Lru.get?_get lru _ key).symm.trans before, fun clears => clears⟩
  | notFound _ => exact .inl ⟨(Lru.get?_get lru _ key).symm.trans found, id⟩
  | @created user data fresh copy answer =>
    rcases Lru.of_get?_add found with ⟨rfl, rfl⟩ | before
    · have own := carries.carries (.create user data fresh) s good
      rw [answer] at own
      exact .inr ⟨user, post.id, rfl, rfl, owns_iff.2 ⟨own, rfl⟩⟩
    · exact .inl ⟨before, id⟩
  | notCreated => exact .inl ⟨found, id⟩
  | listed => exact .inl ⟨found, id⟩
  | updated =>
    obtain ⟨other, before⟩ := Lru.of_get?_remove found
    exact .inl ⟨before, other⟩
  | notUpdated => exact .inl ⟨found, id⟩
  | deleted =>
    obtain ⟨other, before⟩ := Lru.of_get?_remove found
    exact .inl ⟨before, other⟩

/-- Every entry is traced. -/
def AllTraced (trace : List (Recorded κ)) (lru : Lru) : Prop :=
  ∀ key post, lru.entries.get? key = some post → Traced trace key post

theorem AllTraced.serve (carries : store.CarriesIds sound) (running : Running sound capacity state)
    {trace : List (Recorded κ)} (traced : AllTraced trace state.2) (call : Call) :
    AllTraced (trace ++ [(store.watched.reply call state).1])
      (store.watched.serve call state).2.2 := by
  obtain ⟨⟨s, counts⟩, lru⟩ := state
  obtain ⟨reached, asked, passes, after⟩ := store.passes call s counts lru
  intro key post found
  rw [after] at found
  rcases passes.entry carries running.good found with ⟨before, leaves⟩ | ⟨user, id, rfl, given, own⟩
  · exact (traced key post before).append leaves
  · exact traced_last trace given own

/-- Calls made one after the other keep the store sound and every entry traced. -/
theorem run_watched (carries : store.CarriesIds sound) (calls : List Call) :
    ∀ {state : (σ × CallCounts) × Lru} {trace : List (Recorded κ)},
      Running sound capacity state → AllTraced trace state.2 →
        Running sound capacity (store.watched.after calls state) ∧
          AllTraced (trace ++ replies store.watched.reply calls state)
            (store.watched.after calls state).2 := by
  induction calls with
  | nil =>
    intro state trace running traced
    refine ⟨running, ?_⟩
    rw [replies, List.append_nil]
    exact traced
  | cons call calls ih =>
    intro state trace running traced
    have later := ih (running.serve carries call) (traced.serve carries running call)
    rwa [List.append_assoc] at later

/-! ## An entry that stays -/

/-- The own post of a user under an identifier is near the front of the cache. -/
def OwnNear (lru : Lru) (user id : String) (used : Finset String) : Prop :=
  ∃ post, owns user id post = true ∧ Lru.Near lru.entries (Post.cacheKey user id) post used

/-- After a call that has created or read the post, its entry is at the front. -/
theorem Passes.ownNear {s : σ} {lru : Lru} {mark : Recorded κ} {reached : Bool}
    {asked : List CacheCall} (passes : Passes store s lru mark reached asked)
    (carries : store.CarriesIds sound) (good : sound s) {user id : String}
    (given : mark.given? = some (user, id)) (used : Finset String) :
    OwnNear (lru.serveAll asked) user id used := by
  cases passes with
  | hit found own =>
    obtain ⟨rfl, rfl⟩ := Prod.mk.inj (Option.some.inj given)
    exact ⟨_, own, Lru.near_lookup found used⟩
  | @readPast u i post miss answer =>
    obtain ⟨rfl, rfl⟩ := Prod.mk.inj (Option.some.inj given)
    have own := carries.carries (.read u i) s good
    rw [answer] at own
    exact ⟨post, owns_iff.2 own, Lru.near_add _ u i post used⟩
  | notFound _ => cases given
  | @created u data fresh post answer =>
    obtain ⟨rfl, rfl⟩ := Prod.mk.inj (Option.some.inj given)
    have own := carries.carries (.create u data fresh) s good
    rw [answer] at own
    exact ⟨post, owns_iff.2 ⟨own, rfl⟩, Lru.near_add lru u post.id post used⟩
  | notCreated => cases given
  | listed => cases given
  | updated => cases given
  | notUpdated => cases given
  | deleted => cases given

theorem Running.ownNear_serve (carries : store.CarriesIds sound)
    (running : Running sound capacity state) (call : Call) {user id : String}
    (given : Recorded.given? (store.watched.reply call state).1 = some (user, id))
    (used : Finset String) : OwnNear (store.watched.serve call state).2.2 user id used := by
  obtain ⟨⟨s, counts⟩, lru⟩ := state
  obtain ⟨reached, asked, passes, after⟩ := store.passes call s counts lru
  rw [after]
  exact passes.ownNear carries running.good given used

section Staying

variable {lru : Lru} {user id : String} {used : Finset String}

/-- A lookup under the key brings the entry to the front, and under one of the few others leaves it
near. -/
theorem OwnNear.lookup (near : OwnNear lru user id used) (once : lru.entries.Functional)
    (outside : Post.cacheKey user id ∉ used) (few : used.card < lru.capacity) {u i : String}
    (known : Post.cacheKey u i ≠ Post.cacheKey user id → Post.cacheKey u i ∈ used) :
    OwnNear (Lru.serve (.get u i) lru).2 user id used := by
  obtain ⟨post, own, near⟩ := near
  by_cases same : Post.cacheKey u i = Post.cacheKey user id
  · have bound := near.get? outside
    rw [← same] at bound
    refine ⟨post, own, ?_⟩
    rw [← same]
    exact Lru.near_lookup bound used
  · exact ⟨post, own, near.elsewhere once few same (known same)⟩

/-- An addition under the key is of the same post, and one under another of the few keys leaves the
entry near. -/
theorem OwnNear.add (near : OwnNear lru user id used) (once : lru.entries.Functional)
    (few : used.card < lru.capacity) {u i : String} {added : Post}
    (ownAdded : owns u i added = true)
    (known : Post.cacheKey u i ≠ Post.cacheKey user id → Post.cacheKey u i ∈ used)
    (alone : Post.cacheKey u i = Post.cacheKey user id → (u, i) = (user, id)) :
    OwnNear (Lru.serve (.add u i added) lru).2 user id used := by
  by_cases same : Post.cacheKey u i = Post.cacheKey user id
  · obtain ⟨rfl, rfl⟩ := Prod.mk.inj (alone same)
    exact ⟨added, ownAdded, Lru.near_add lru u i added used⟩
  · obtain ⟨post, own, near⟩ := near
    exact ⟨post, own, near.elsewhere once few same (known same)⟩

/-- A removal under another key leaves the entry near. -/
theorem OwnNear.remove (near : OwnNear lru user id used) {u i : String}
    (other : Post.cacheKey u i ≠ Post.cacheKey user id) :
    OwnNear (Lru.serve (.remove u i) lru).2 user id used := by
  obtain ⟨post, own, near⟩ := near
  exact ⟨post, own, near.erase other⟩

/-- A call that neither clears the key nor takes it over, and uses no key but the few, leaves the
entry near. -/
theorem Passes.stays {s : σ} {reply : Recorded κ} {reached : Bool} {asked : List CacheCall}
    (passes : Passes store s lru reply reached asked) (carries : store.CarriesIds sound)
    (good : sound s) (once : lru.entries.Functional) (near : OwnNear lru user id used)
    (outside : Post.cacheKey user id ∉ used) (few : used.card < lru.capacity)
    (quiet : ¬ reply.Clears (Post.cacheKey user id) ∧ ¬ reply.TakesOver user id)
    (known : ∀ key ∈ reply.used?, key ≠ Post.cacheKey user id → key ∈ used) :
    OwnNear (lru.serveAll asked) user id used := by
  -- what is created or read under the key is the same post once more
  have alone : ∀ u i, reply.given? = some (u, i) → Post.cacheKey u i = Post.cacheKey user id →
      (u, i) = (user, id) := fun u i given same =>
    Classical.byContradiction fun other => quiet.2 ⟨u, i, given, other, same⟩
  cases passes with
  | hit found own => exact near.lookup once outside few (known _ rfl)
  | @readPast u i post miss answer =>
    have own := carries.carries (.read u i) s good
    rw [answer] at own
    have move := Lru.moves lru (.get u i)
    exact (near.lookup once outside few (known _ rfl)).add (move.once once)
      (move.capacity_eq.symm ▸ few) (owns_iff.2 own) (known _ rfl) (alone u i rfl)
  | notFound miss => exact near.lookup once outside few (known _ rfl)
  | @created u data fresh post answer =>
    have own := carries.carries (.create u data fresh) s good
    rw [answer] at own
    exact near.add once few (owns_iff.2 ⟨own, rfl⟩) (known _ rfl) (alone u post.id rfl)
  | notCreated => exact near
  | listed => exact near
  | updated => exact near.remove quiet.1
  | notUpdated => exact near
  | deleted => exact near.remove quiet.1

end Staying

/-- Calls that neither clear the key nor take it over, and use no keys but the few, leave the entry
near. -/
theorem ownNear_after (carries : store.CarriesIds sound) {user id : String} {used : Finset String}
    (outside : Post.cacheKey user id ∉ used) (few : used.card < capacity) (calls : List Call) :
    ∀ {state : (σ × CallCounts) × Lru}, Running sound capacity state →
      OwnNear state.2 user id used →
      (∀ reply ∈ replies store.watched.reply calls state,
        ¬ Recorded.Clears (Post.cacheKey user id) reply ∧ ¬ Recorded.TakesOver user id reply) →
      (∀ reply ∈ replies store.watched.reply calls state,
        ∀ key ∈ Recorded.used? reply, key ≠ Post.cacheKey user id → key ∈ used) →
        OwnNear (store.watched.after calls state).2 user id used := by
  induction calls with
  | nil => exact fun _ near _ _ => near
  | cons call calls ih =>
    intro state running near quiet known
    obtain ⟨⟨s, counts⟩, lru⟩ := state
    obtain ⟨reached, asked, passes, after⟩ := store.passes call s counts lru
    have room : used.card < lru.capacity := running.capacity_eq.symm ▸ few
    have next := passes.stays carries running.good running.once near outside room
      (quiet _ List.mem_cons_self) (known _ List.mem_cons_self)
    refine ih (running.serve carries call) ?_
      (fun reply later => quiet reply (List.mem_cons_of_mem _ later))
      (fun reply later => known reply (List.mem_cons_of_mem _ later))
    rwa [after]

/-- A key that a call of the trace has used is among the others, unless it is the one. -/
theorem mem_otherKeys {key key' : String} {trace : List (Recorded κ)} {reply : Recorded κ}
    (member : reply ∈ trace) (used : key' ∈ reply.used?) (other : key' ≠ key) :
    key' ∈ otherKeys key trace :=
  Finset.mem_erase.2 ⟨other, List.mem_toFinset.2 (List.mem_filterMap.2 ⟨reply, member, used⟩)⟩

/-- The first part of the replies is that to the first part of the calls. -/
theorem Store.split_replies {ω : Type} (store : Store ω κ) (before : List (Recorded κ)) :
    ∀ {after : List (Recorded κ)} {calls : List Call} {state : ω},
      replies store.reply calls state = before ++ after →
        ∃ early late, calls = early ++ late ∧
          after = replies store.reply late (store.after early state) := by
  induction before with
  | nil => exact fun {after calls state} split => ⟨[], calls, rfl, split.symm⟩
  | cons reply before ih =>
    intro after calls state split
    cases calls with
    | nil => cases split
    | cons call calls =>
      obtain ⟨early, late, rfl, rest⟩ := ih (List.cons.inj split).2
      exact ⟨call :: early, late, rfl, rest⟩

/-! ## What reaches the store -/

/-- A lookup is spared just when the cache has the reader's own post. -/
theorem spared_iff (state : (σ × CallCounts) × Lru) (user id : String) :
    store.Spared state user id ↔
      ∃ post, state.2.entries.get? (Post.cacheKey user id) = some post ∧
        owns user id post = true := by
  obtain ⟨⟨s, counts⟩, lru⟩ := state
  obtain ⟨reached, asked, passes, after⟩ := store.passes (.read user id) s counts lru
  unfold Store.Spared
  rw [after]
  generalize (store.watched.serve (.read user id) ((s, counts), lru)).1 = answer at passes
  cases passes with
  | hit found own => exact ⟨fun _ => ⟨_, found, own⟩, fun _ => rfl⟩
  | readPast miss _ =>
    refine ⟨fun same => absurd same (counts.count_ne (.read user id)), ?_⟩
    rintro ⟨post, found, own⟩
    exact absurd own (miss post found)
  | notFound miss =>
    refine ⟨fun same => absurd same (counts.count_ne (.read user id)), ?_⟩
    rintro ⟨post, found, own⟩
    exact absurd own (miss post found)

/-- Every call but a lookup reaches the store once. -/
theorem reached_once (store : Store σ κ) (state : (σ × CallCounts) × Lru) {call : Call}
    (other : ∀ user id, call ≠ .read user id) :
    (store.watched.serve call state).2.1.2 = state.1.2.count call := by
  obtain ⟨⟨s, counts⟩, lru⟩ := state
  obtain ⟨reached, asked, passes, after⟩ := store.passes call s counts lru
  rw [after]
  cases reached with
  | true => rfl
  | false =>
    generalize (store.watched.serve call ((s, counts), lru)).1 = answer at passes
    cases passes with
    | @hit user id _ _ _ => exact absurd rfl (other user id)

theorem spared_or_reached_once (store : Store σ κ) (state : (σ × CallCounts) × Lru)
    (user id : String) :
    store.Spared state user id ∨
      (store.watched.serve (.read user id) state).2.1.2 = state.1.2.count (.read user id) := by
  obtain ⟨⟨s, counts⟩, lru⟩ := state
  obtain ⟨reached, asked, -, after⟩ := store.passes (.read user id) s counts lru
  unfold Store.Spared
  rw [after]
  cases reached with
  | true => exact .inr rfl
  | false => exact .inl rfl

/-- A lookup that is spared has found the reader's own post, and that is traced. -/
theorem AllTraced.of_spared {trace : List (Recorded κ)} (traced : AllTraced trace state.2)
    {user id : String} (spared : store.Spared state user id) :
    ∃ earlier mark between, trace = earlier ++ mark :: between ∧
      mark.given? = some (user, id) ∧
      ∀ reply ∈ between, ¬ reply.Clears (Post.cacheKey user id) := by
  obtain ⟨post, found, own⟩ := (spared_iff state user id).1 spared
  obtain ⟨-, earlier, mark, between, split, given, quiet⟩ := traced _ post found
  obtain ⟨rfl, rfl⟩ := owns_iff.1 own
  exact ⟨earlier, mark, between, split, given, quiet⟩

/-- The post is at the front after the call that gave it, and no call in between pushes it out. -/
theorem Running.spared_later (carries : store.CarriesIds sound)
    (running : Running sound capacity state) {call : Call} {user id : String}
    (given : Recorded.given? (store.watched.reply call state).1 = some (user, id))
    {late : List Call}
    (quiet : ∀ reply ∈ replies store.watched.reply late (store.watched.serve call state).2,
      ¬ Recorded.Clears (Post.cacheKey user id) reply ∧ ¬ Recorded.TakesOver user id reply)
    (few : (otherKeys (Post.cacheKey user id)
      (replies store.watched.reply late (store.watched.serve call state).2)).card < capacity) :
    store.Spared (store.watched.after late (store.watched.serve call state).2) user id := by
  have outside : Post.cacheKey user id ∉ otherKeys (Post.cacheKey user id)
      (replies store.watched.reply late (store.watched.serve call state).2) :=
    Finset.notMem_erase _ _
  have first := running.ownNear_serve carries call given
    (otherKeys (Post.cacheKey user id)
      (replies store.watched.reply late (store.watched.serve call state).2))
  obtain ⟨post, own, near⟩ := ownNear_after carries outside few late
    (running.serve carries call) first quiet
    fun reply member key used other => mem_otherKeys member used other
  exact (spared_iff _ user id).2 ⟨post, near.get? outside, own⟩

/-- **The cache in memory spares the store the lookups that it should, and no other call**, over
every store whose posts carry what was asked for, as those of a healthy store do.  Every other call
reaches the store once; a lookup that does not reach it asks for a post that was created or read
before and whose cache key was not cleared since; and such a lookup does not reach it, if no other
post took the key over and fewer other keys were used since than the cache has room for. -/
theorem spares_reads (carries : store.CarriesIds sound) {s : σ} (good : sound s) (capacity : Nat)
    (calls : List Call) : store.SparesReads capacity s calls := by
  have start : Running sound capacity ((s, ({} : CallCounts)), ({ capacity } : Lru)) :=
    ⟨good, List.nodup_nil, rfl⟩
  have fresh : AllTraced ([] : List (Recorded κ)) ({ capacity } : Lru) :=
    fun key post found => nomatch found
  constructor
  · exact fun call other => reached_once store _ other
  · exact fun user id => spared_or_reached_once store _ user id
  · exact fun user id spared => (run_watched carries calls start fresh).2.of_spared spared
  · intro user id earlier mark between trace given quiet few
    -- the calls split where the replies do
    obtain ⟨early, late, rfl, rest⟩ := store.watched.split_replies earlier trace
    cases late with
    | nil => cases rest
    | cons call late =>
      obtain ⟨rfl, rfl⟩ := List.cons.inj rest
      have running := (run_watched carries early start fresh).1
      rw [Store.after_append]
      exact running.spared_later carries given quiet few

end Runs

/-- Two posts of one cache key, which the second takes over, a third post under another key, and a
change of a post that is not there. -/
def neighbours : List Call :=
  [.create "a#b" "milk" ⟨"c", .epoch⟩, .create "a" "tea" ⟨"b#c", .epoch⟩,
    .create "a" "bread" ⟨"d", .epoch⟩, .update "a#b" "nothing" "" .epoch]

/-- With room for two, the second post is still read from the cache, as one other key was used
since; the first is not, as its key was taken over. -/
theorem spares_reads_neighbours :
    let state := Memory.store.watched.after neighbours (({}, {}), { capacity := 2 })
    Memory.store.Spared state "a" "b#c" ∧ ¬ Memory.store.Spared state "a#b" "c" := by
  intro state
  have spares : Memory.store.SparesReads 2 {} neighbours :=
    spares_reads Memory.healthy.carriesIds Memory.filed_empty 2 neighbours
  refine ⟨spares.spared "a" "b#c" [_] _ [_, _] rfl rfl ?_ (by decide), ?_⟩
  · intro reply member
    rcases List.mem_cons.1 member with rfl | later
    · refine ⟨id, ?_⟩
      rintro ⟨u, i, ⟨⟩, -, same⟩
      exact absurd same (by decide)
    · obtain rfl := List.mem_singleton.1 later
      refine ⟨id, ?_⟩
      rintro ⟨u, i, ⟨⟩, -⟩
  · rw [spared_iff]
    rintro ⟨post, ⟨⟩, own⟩
    exact absurd own (by decide)

end PostStore
