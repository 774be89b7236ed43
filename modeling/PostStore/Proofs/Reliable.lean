import PostStore.Proofs.Postgres.Agreement
import PostStore.Proofs.Timestamps
import PostStore.Proofs.Weather
/-!
# Reliable stores and keyed caches

A reliable store follows its catalogue or fails, but finds what it is asked for if it is there; the
stores in memory, in a file, in a key-value server and in a database are reliable for the calls that
they can serve.  A keyed cache files a post under the key that it is told and nowhere else, and
still has what a lookup has found; the caches in memory and in a key-value server are keyed.
-/

namespace PostStore

/-! ## Stores -/

section Stores

variable {σ κ : Type} {store : Store σ κ} {scope : Call → σ → Prop} {shows : Catalogue → σ → Prop}
  {held : Catalogue} {state : σ}

/-- For the calls in its scope a store follows its catalogue or fails.  A lookup gives what the
catalogue has, and opening a listing leaves the catalogue as it is. -/
structure Store.Reliable (store : Store σ κ) (scope : Call → σ → Prop)
    (shows : Catalogue → σ → Prop) : Prop where
  heeds : store.Heeds scope shows
  finds : ∀ {held state user id}, shows held state → scope (.read user id) state →
    (store.serve (.read user id) state).1 = held.lookup user id
  opens : ∀ {held state user}, shows held state → scope (.readAll user) state →
    shows held (store.serve (.readAll user) state).2

namespace Store.Reliable

/-- After a call the store shows the same catalogue as before, or the one after the call. -/
theorem serve (reliable : store.Reliable scope shows) (shown : shows held state) {call : Call}
    (inScope : scope call state) :
    ∃ next, (next = held ∨ next = held.after call) ∧ shows next (store.serve call state).2 := by
  -- but for a listing there is no more to a call than serving it
  have heeded : (store.complete call state).2 = (store.serve call state).2 →
      ∃ next, (next = held ∨ next = held.after call) ∧ shows next (store.serve call state).2 := by
    intro same
    obtain ⟨next, allowed, after⟩ := reliable.heeds call held state shown inScope
    rw [same] at after
    rcases allowed with ⟨-, rfl⟩ | ⟨-, rfl⟩
    · exact ⟨_, .inr rfl, after⟩
    · exact ⟨_, .inl rfl, after⟩
  cases call with
  | readAll user => exact ⟨held, .inl rfl, reliable.opens shown inScope⟩
  | create => exact heeded rfl
  | read => exact heeded rfl
  | update => exact heeded rfl
  | delete => exact heeded rfl

/-- The post that is given to a creation is the one that is made. -/
theorem make_of_create (reliable : store.Reliable scope shows) (shown : shows held state)
    {user data : String} {fresh : Fresh} (inScope : scope (.create user data fresh) state)
    {post : Post} (given : (store.serve (.create user data fresh) state).1 = .ok post) :
    post = Post.make user data fresh := by
  obtain ⟨next, ⟨made, -⟩ | ⟨⟨e, failed⟩, -⟩, -⟩ :=
    reliable.heeds (.create user data fresh) held state shown inScope
  · exact Except.ok.inj (given.symm.trans made)
  · exact nomatch given.symm.trans failed

end Store.Reliable

/-- A store that follows its catalogue and opens listings without touching it is reliable. -/
theorem Store.Follows.reliable (follows : store.Follows scope shows)
    (opens : ∀ {held state user}, shows held state → scope (.readAll user) state →
      shows held (store.serve (.readAll user) state).2) : store.Reliable scope shows where
  heeds := follows.heeds
  finds shown inScope := (follows (.read _ _) _ _ shown inScope).1
  opens := opens

theorem Memory.reliable : Memory.store.Reliable (fun _ _ => True) Shows :=
  Memory.follows.reliable fun shown _ => shown

/-- A file may be full, which lookups do not mind. -/
theorem Lmdb.reliable {names : Set String} (distinct : Distinct names) (pageSize : Nat) :
    (Lmdb.store pageSize).Reliable (fun call _ => ∀ name ∈ call.names, name ∈ names)
      (Shows names) where
  heeds := Lmdb.heeds distinct pageSize
  finds {_ _ user id} shown known :=
    (complete_store shown distinct pageSize (.read user id) known fun _ files => nomatch files).1
  opens {_ _ user} shown known := by
    obtain ⟨cursor, posts, opened, -⟩ :=
      Lmdb.opens shown distinct pageSize (known user List.mem_cons_self)
    rw [opened]
    exact shown

theorem Redis.reliable {serve : (command : Redis.Command) → σ → Redis.ReplyTo command × σ}
    {bound : σ → String → Nat} {sound : σ → Prop} {hash : σ → String → String → Option Bytes}
    (acts : ActsAsHashes serve bound sound hash) {setup : StoreSetup}
    (positive : 0 < setup.scanCount) :
    (storeOver serve setup bound).Reliable (fun _ s => sound s) (Shows setup hash) :=
  (Redis.follows acts positive).reliable fun shown _ => shown

theorem Postgres.reliable {engine : Engine σ} {before : String → String → Bool}
    {earliest : Instant} {table : σ → List Post} {pageSize : Nat} {bound : Mark → σ → Nat}
    (executes : engine.Executes before earliest table) (fits : pageSize < 2 ^ 63)
    (room : ∀ mark s, (table s).length ≤ bound mark s) :
    (storeOver engine.serve pageSize bound).Reliable
      (fun call s => Sendable earliest call ∧ Permits (heldIn (table s)) call)
      (fun held s => Filled held (table s)) :=
  (Postgres.follows executes fits room).reliable fun filled _ => filled

end Stores

/-! ## Caches -/

section Caches

variable {τ : Type}

/-- A cache that holds, of the regular posts it is given, only what it was given, under the key that
it was given for; what a lookup has found is still there. -/
structure Cache.Keyed (cache : Cache τ) (peek : τ → Catalogue) : Prop
    extends cache.ForgetfulFor Post.Regular peek where
  stays : ∀ user id t post, (cache.serve (.get user id) t).1 = some post →
    peek (cache.serve (.get user id) t).2 user id = some post
  placed : ∀ user id added t u i post, added.Regular →
    peek (cache.serve (.add user id added) t).2 u i = some post →
      peek t u i = some post ∨ post = added ∧ Post.cacheKey u i = Post.cacheKey user id

theorem Lru.keyed : Lru.cache.Keyed peek where
  toForgetfulFor := Lru.forgetful.forgetfulFor _
  stays user id lru post found := by
    have there := (get_answer lru (Post.cacheKey user id)).symm.trans found
    simp only [peek, cache, serve, get?_get]
    exact there
  placed user id added lru u i post _ found := by
    simp only [peek, cache, serve] at found
    by_cases here : Post.cacheKey user id = Post.cacheKey u i
    · rw [here, get?_add_self] at found
      exact .inr ⟨(Option.some.inj found).symm, here.symm⟩
    · exact .inl (get?_of_add here found)

namespace Redis

theorem CacheSetup.entryKey_inj {setup : CacheSetup} {user id u i : String} :
    setup.entryKey user id = setup.entryKey u i ↔ Post.cacheKey user id = Post.cacheKey u i := by
  simp [entryKey]

/-- Whatever the weather, the cache in a key-value server is keyed. -/
theorem weatherCache_keyed (setup : CacheSetup) :
    (weatherCache setup).Keyed (weatherPeek setup) where
  toForgetfulFor := weatherCache_forgetful setup
  stays user id state post answer := by
    obtain ⟨exposed, counts⟩ := state
    simp only [cacheOver, weatherPeek] at answer ⊢
    rw [run_get] at answer ⊢
    cases found : Found.ofReply (exposed.serve (.get (setup.entryKey user id))).1 with
    | entry other =>
      rw [found] at answer
      obtain rfl := Option.some.inj answer
      simp only [Exposed.peek_get]
      exact Server.peek_eq_some.2 (Exposed.entry_of_get exposed found)
    | nothing =>
      rw [found] at answer
      cases answer
    | undecodable =>
      rw [found] at answer
      cases answer
    | failed =>
      rw [found] at answer
      cases answer
  placed user id added state u i post regular kept := by
    obtain ⟨exposed, counts⟩ := state
    simp only [weatherPeek, cacheOver, CacheSetup.perform, Dialogue.run,
      Exposed.peek_store regular] at kept
    split at kept
    · exact .inl (Exposed.peek_of_arriving kept)
    · split at kept
      case isTrue here =>
        exact .inr ⟨(Option.some.inj kept).symm, (CacheSetup.entryKey_inj.1 here).symm⟩
      case isFalse => exact .inl (Exposed.peek_of_arriving kept)

end Redis

end Caches

end PostStore
