import PostStore.Cache.Absent
import PostStore.Coordinator
import PostStore.Store.Layer
/-!
# The dialogues of the coordinator

Each call of the coordinator opened into the questions that it asks, and what it comes to when it is
served without interruption from a store and a cache in media of their own.
-/

namespace PostStore

/-! ## The questions of each call -/

namespace Coordinator

variable {κ α : Type}

/-- Adds a post to the cache and ends. -/
def fill (user id : String) (post : Post) (value : α) : Talk κ α :=
  .ask (.cache (.add user id post)) fun _ => .done value

/-- Takes a post out of the cache and ends. -/
def forget (user id : String) (value : α) : Talk κ α :=
  .ask (.cache (.remove user id)) fun _ => .done value

theorem owns_iff {user id : String} {post : Post} :
    owns user id post = true ↔ post.user = user ∧ post.id = id := by
  simp [owns]

theorem readThrough_eq (user id : String) :
    (readThrough user id : Talk κ (Except StoreError Post)) =
      .ask (.store (.read user id)) fun
        | .error e => .done (.error e)
        | .ok post => fill user id post (.ok post) := by
  simp only [readThrough, bind, callStore, Dialogue.bind]
  congr 1

theorem perform_create (user data : String) (fresh : Fresh) :
    (perform (.create user data fresh) : Talk κ (Except StoreError Post)) =
      .ask (.store (.create user data fresh)) fun
        | .error e => .done (.error e)
        | .ok post => fill user post.id post (.ok post) := by
  simp only [perform, bind, callStore, Dialogue.bind]
  congr 1

theorem perform_read (user id : String) :
    (perform (.read user id) : Talk κ (Except StoreError Post)) =
      .ask (.cache (.get user id)) fun
        | some post => if owns user id post then .done (.ok post) else readThrough user id
        | none => readThrough user id := by
  simp only [perform, bind, callCache, Dialogue.bind]
  congr 1
  funext found
  cases found <;> rfl

theorem perform_update (user id data : String) (clock : ClockReading) :
    (perform (.update user id data clock) : Talk κ (Except StoreError Post)) =
      .ask (.store (.update user id data clock)) fun
        | .error e => .done (.error e)
        | .ok post => forget user id (.ok post) := by
  simp only [perform, bind, callStore, Dialogue.bind]
  congr 1

end Coordinator

/-! ## Calls served without interruption -/

section Serving

variable {σ τ κ : Type}

/-- A store and a cache in media of their own as one store. -/
def Store.cachedBy (store : Store σ κ) (cache : Cache τ) : Store (σ × τ) κ :=
  (store.within .first).behind (cache.within .second)

variable (store : Store σ κ) (cache : Cache τ) (s : σ) (t : τ)

theorem serve_cachedBy (call : Call) :
    (store.cachedBy cache).serve call (s, t) =
      (Coordinator.perform call).run
        (Coordinator.serve (store.within .first) (cache.within .second)) (s, t) := rfl

@[simp] theorem serve_store_pair (call : Call) :
    Coordinator.serve (store.within .first) (cache.within .second) (.store call) (s, t) =
      ((store.serve call s).1, (store.serve call s).2, t) := rfl

@[simp] theorem serve_cache_pair (call : CacheCall) :
    Coordinator.serve (store.within .first) (cache.within .second) (.cache call) (s, t) =
      ((cache.serve call t).1, s, (cache.serve call t).2) := rfl

/-- What every call of the store keeps is kept by a dialogue. -/
theorem run_keeps {α : Type} {sound : σ → Prop}
    (keeps : ∀ call s, sound s → sound (store.serve call s).2) (talk : Coordinator.Talk κ α) :
    ∀ {medium : σ × τ}, sound medium.1 →
      sound (talk.run
        (Coordinator.serve (store.within .first) (cache.within .second)) medium).2.1 := by
  induction talk with
  | done value => exact fun good => good
  | ask question next ih =>
    intro medium good
    cases question with
    | store call => exact ih _ (keeps call medium.1 good)
    | cache call => exact ih _ good

/-- A new post is added to the cache. -/
theorem serve_create_cachedBy (user data : String) (fresh : Fresh) :
    (store.cachedBy cache).serve (.create user data fresh) (s, t) =
      match store.serve (.create user data fresh) s with
      | (.error e, s') => (.error e, s', t)
      | (.ok post, s') => (.ok post, s', (cache.serve (.add user post.id post) t).2) := by
  rw [serve_cachedBy, Coordinator.perform_create]
  rcases h : store.serve (.create user data fresh) s with ⟨answer, s'⟩
  cases answer with
  | error e => simp [Dialogue.run, h]
  | ok post => simp [Dialogue.run, Coordinator.fill, h]

/-- Reading past the cache adds what was found to it. -/
theorem run_readThrough (user id : String) :
    (Coordinator.readThrough user id).run
        (Coordinator.serve (store.within .first) (cache.within .second)) (s, t) =
      match store.serve (.read user id) s with
      | (.error e, s') => (.error e, s', t)
      | (.ok post, s') => (.ok post, s', (cache.serve (.add user id post) t).2) := by
  rw [Coordinator.readThrough_eq]
  rcases h : store.serve (.read user id) s with ⟨answer, s'⟩
  cases answer with
  | error e => simp [Dialogue.run, h]
  | ok post => simp [Dialogue.run, Coordinator.fill, h]

/-- A lookup that hits the caller's own post gives it. -/
theorem serve_read_cachedBy_hit {user id : String} {post : Post}
    (hit : (cache.serve (.get user id) t).1 = some post)
    (own : Coordinator.owns user id post = true) :
    (store.cachedBy cache).serve (.read user id) (s, t) =
      (.ok post, s, (cache.serve (.get user id) t).2) := by
  rw [serve_cachedBy, Coordinator.perform_read]
  simp [Dialogue.run, hit, own]

/-- A lookup that misses, or hits the post of someone else, reads past the cache. -/
theorem serve_read_cachedBy_miss {user id : String}
    (miss : ∀ post, (cache.serve (.get user id) t).1 = some post →
      ¬ Coordinator.owns user id post = true) :
    (store.cachedBy cache).serve (.read user id) (s, t) =
      (Coordinator.readThrough user id).run
        (Coordinator.serve (store.within .first) (cache.within .second))
        (s, (cache.serve (.get user id) t).2) := by
  rw [serve_cachedBy, Coordinator.perform_read]
  cases found : (cache.serve (.get user id) t).1 with
  | none => simp [Dialogue.run, found]
  | some post => simp [Dialogue.run, found, miss post found]

/-- A listing never sees the cache. -/
theorem serve_readAll_cachedBy (user : String) :
    (store.cachedBy cache).serve (.readAll user) (s, t) =
      ((store.serve (.readAll user) s).1, (store.serve (.readAll user) s).2, t) := rfl

/-- A post that was changed is taken out of the cache. -/
theorem serve_update_cachedBy (user id data : String) (clock : ClockReading) :
    (store.cachedBy cache).serve (.update user id data clock) (s, t) =
      match store.serve (.update user id data clock) s with
      | (.error e, s') => (.error e, s', t)
      | (.ok post, s') => (.ok post, s', (cache.serve (.remove user id) t).2) := by
  rw [serve_cachedBy, Coordinator.perform_update]
  rcases h : store.serve (.update user id data clock) s with ⟨answer, s'⟩
  cases answer with
  | error e => simp [Dialogue.run, h]
  | ok post => simp [Dialogue.run, Coordinator.forget, h]

/-- Whatever becomes of a removal, the post is taken out of the cache. -/
theorem serve_delete_cachedBy (user id : String) :
    (store.cachedBy cache).serve (.delete user id) (s, t) =
      ((store.serve (.delete user id) s).1, (store.serve (.delete user id) s).2,
        (cache.serve (.remove user id) t).2) := rfl

/-- A cache that is not there changes nothing. -/
theorem serve_behind_absent (call : Call) (s : σ) :
    (store.behind Cache.absent).serve call s = store.serve call s := by
  -- every lookup misses, and additions and removals do nothing, so only the store is left to ask
  show (Coordinator.perform call).run (Coordinator.serve store Cache.absent) s = _
  cases call with
  | create user data fresh =>
    rw [Coordinator.perform_create]
    rcases h : store.serve (.create user data fresh) s with ⟨answer, s'⟩
    cases answer <;> simp [Dialogue.run, Coordinator.fill, Coordinator.serve, Cache.absent, h]
  | read user id =>
    rw [Coordinator.perform_read, Coordinator.readThrough_eq]
    rcases h : store.serve (.read user id) s with ⟨answer, s'⟩
    cases answer <;>
      simp [Dialogue.run, Coordinator.fill, Coordinator.serve, Cache.absent, CacheCall.miss, h]
  | readAll user => rfl
  | update user id data clock =>
    rw [Coordinator.perform_update]
    rcases h : store.serve (.update user id data clock) s with ⟨answer, s'⟩
    cases answer <;> simp [Dialogue.run, Coordinator.forget, Coordinator.serve, Cache.absent, h]
  | delete user id => rfl

end Serving

end PostStore
