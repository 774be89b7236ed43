import PostStore.Proofs.Coordinator
/-!
# When a cache cannot be noticed

A store is seen through its catalogue, what it holds under each user and identifier, and a cache
through what a lookup in it would give.  The two are coherent when no lookup gives a post to its
owner that the catalogue does not have.  As long as every change takes the copy of what it changed
out of the cache, a call of the coordinator keeps the two coherent and answers as the bare store.
-/

namespace PostStore

/-- What is held under each user and identifier. -/
abbrev Catalogue := String → String → Option Post

/-- What a lookup in a catalogue gives. -/
def Catalogue.lookup (held : Catalogue) (user id : String) : Except StoreError Post :=
  match held user id with
  | some post => .ok post
  | none => .error (.notFound user id)

theorem Catalogue.lookup_eq_ok {held : Catalogue} {user id : String} {post : Post} :
    held.lookup user id = .ok post ↔ held user id = some post := by
  unfold lookup
  cases held user id <;> simp

/-! ## What is asked of stores and caches -/

section Contracts

variable {σ τ κ : Type}

/-- In sound states the store gives what its catalogue has, files posts under their own user and
identifier, and a call changes the catalogue only under those it is about, if at all. -/
structure Store.Faithful (store : Store σ κ) (sound : σ → Prop) (held : σ → Catalogue) : Prop where
  keeps_sound : ∀ call s, sound s → sound (store.serve call s).2
  own : ∀ s user id post, sound s → held s user id = some post →
    Coordinator.owns user id post = true
  read : ∀ user id s, sound s → (store.serve (.read user id) s).1 = (held s).lookup user id
  held_read : ∀ user id s, sound s → held (store.serve (.read user id) s).2 = held s
  held_readAll : ∀ user s, sound s → held (store.serve (.readAll user) s).2 = held s
  create_ok : ∀ user data fresh s post, sound s →
    (store.serve (.create user data fresh) s).1 = .ok post →
      post.user = user ∧ held (store.serve (.create user data fresh) s).2 user post.id = some post ∧
        ∀ u i, ¬ (u = user ∧ i = post.id) →
          held (store.serve (.create user data fresh) s).2 u i = held s u i
  create_error : ∀ user data fresh s e, sound s →
    (store.serve (.create user data fresh) s).1 = .error e →
      held (store.serve (.create user data fresh) s).2 = held s
  update : ∀ user id data clock s u i, sound s → ¬ (u = user ∧ i = id) →
    held (store.serve (.update user id data clock) s).2 u i = held s u i
  update_error : ∀ user id data clock s e, sound s →
    (store.serve (.update user id data clock) s).1 = .error e →
      held (store.serve (.update user id data clock) s).2 = held s
  delete : ∀ user id s u i, sound s → ¬ (u = user ∧ i = id) →
    held (store.serve (.delete user id) s).2 u i = held s u i

/-- States in the relation answer the calls in `scope` alike, and a lookup is not noticed. -/
structure Store.Bisimilar (store : Store σ κ) (scope : Call → Prop) (same : σ → σ → Prop) :
    Prop where
  answer : ∀ call s s', scope call → same s s' → (store.serve call s).1 = (store.serve call s').1
  next : ∀ call s s', scope call → same s s' →
    same (store.serve call s).2 (store.serve call s').2
  skip : ∀ user id s s', same s s' → same s (store.serve (.read user id) s').2

/-- The cache gives what it holds and holds only what it held before or was just given, provided
that the posts it is given `fit` it. -/
structure Cache.ForgetfulFor (fit : Post → Prop) (cache : Cache τ) (peek : τ → Catalogue) :
    Prop where
  get : ∀ user id t post, (cache.serve (.get user id) t).1 = some post →
    peek t user id = some post
  get_keeps : ∀ user id t u i post, peek (cache.serve (.get user id) t).2 u i = some post →
    peek t u i = some post
  add : ∀ user id added t u i post, fit added →
    peek (cache.serve (.add user id added) t).2 u i = some post →
      post = added ∨ peek t u i = some post
  remove : ∀ user id t u i post, peek (cache.serve (.remove user id) t).2 u i = some post →
    peek t u i = some post

/-- The cache gives what it holds and holds only what it held before or was just given, whatever
that was. -/
abbrev Cache.Forgetful (cache : Cache τ) (peek : τ → Catalogue) : Prop :=
  cache.ForgetfulFor (fun _ => True) peek

/-- What is well with all posts is well with some. -/
theorem Cache.Forgetful.forgetfulFor {cache : Cache τ} {peek : τ → Catalogue}
    (forgetful : cache.Forgetful peek) (fit : Post → Prop) : cache.ForgetfulFor fit peek where
  get := forgetful.get
  get_keeps := forgetful.get_keeps
  add user id added t u i post _ := forgetful.add user id added t u i post trivial
  remove := forgetful.remove

/-- Whether a call leaves the cache without a copy of the post that it is about, except for the one
that it adds. -/
def Cache.Clears (cache : Cache τ) (peek : τ → Catalogue) (t : τ) : CacheCall → Prop
  | .get _ _ => True
  | .add user id added => ∀ post, peek (cache.serve (.add user id added) t).2 user id = some post →
      Coordinator.owns user id post = true → post = added
  | .remove user id => ∀ post, peek (cache.serve (.remove user id) t).2 user id = some post →
      ¬ Coordinator.owns user id post = true

/-- Whether the cache lets go of the copy of what a call changes in the store. -/
def Coordinator.Settles (store : Store σ κ) (cache : Cache τ) (peek : τ → Catalogue) (s : σ)
    (t : τ) : Call → Prop
  | .create user data fresh => ∀ post, (store.serve (.create user data fresh) s).1 = .ok post →
      cache.Clears peek t (.add user post.id post)
  | .update user id data clock => ∀ post,
      (store.serve (.update user id data clock) s).1 = .ok post →
        cache.Clears peek t (.remove user id)
  | .delete user id => cache.Clears peek t (.remove user id)
  | .read .. | .readAll _ => True

end Contracts

/-- No lookup in the cache gives a post to its owner that the catalogue does not have. -/
def Coherent (held peek : Catalogue) : Prop :=
  ∀ user id post, peek user id = some post → Coordinator.owns user id post = true →
    held user id = some post

namespace Coherent

/-- What holds under one user and identifier may change as long as the cache follows there, and may
forget or keep what it holds elsewhere. -/
theorem change {held held' peek peek' : Catalogue} {user id : String}
    (coherent : Coherent held peek)
    (elsewhere : ∀ u i, ¬ (u = user ∧ i = id) → held' u i = held u i)
    (kept : ∀ u i post, ¬ (u = user ∧ i = id) → peek' u i = some post →
      Coordinator.owns u i post = true → peek u i = some post)
    (here : ∀ post, peek' user id = some post → Coordinator.owns user id post = true →
      held' user id = some post) :
    Coherent held' peek' := by
  intro u i post found own
  by_cases same : u = user ∧ i = id
  · obtain ⟨rfl, rfl⟩ := same
    exact here post found own
  · rw [elsewhere u i same]
    exact coherent u i post (kept u i post same found own) own

/-- A cache that holds nothing is coherent with every store. -/
theorem of_empty {held peek : Catalogue} (empty : ∀ user id, peek user id = none) :
    Coherent held peek := by
  intro user id post found
  rw [empty] at found
  cases found

end Coherent

/-! ## One call -/

section Calls

variable {σ τ κ : Type} {store : Store σ κ} {cache : Cache τ} {sound : σ → Prop}
  {held : σ → Catalogue} {peek : τ → Catalogue} {fit : Post → Prop} {s : σ} {t : τ}

/-- A lookup in the cache keeps it coherent. -/
theorem Coherent.get {held : Catalogue} (forgetful : cache.ForgetfulFor fit peek)
    (coherent : Coherent held (peek t)) (user id : String) :
    Coherent held (peek (cache.serve (.get user id) t).2) :=
  fun u i post found own => coherent u i post (forgetful.get_keeps user id t u i post found) own

/-- Adding a post that the store holds keeps the cache coherent. -/
theorem Coherent.add {held : Catalogue} (forgetful : cache.ForgetfulFor fit peek)
    (coherent : Coherent held (peek t)) {user id : String} {post : Post} (fits : fit post)
    (current : held user id = some post) (own : Coordinator.owns user id post = true) :
    Coherent held (peek (cache.serve (.add user id post) t).2) := by
  intro u i post' found own'
  rcases forgetful.add user id post t u i post' fits found with rfl | old
  · -- others may share the cache key with the owner, but only the owner takes the post for its own
    obtain ⟨hu, hi⟩ := Coordinator.owns_iff.1 own
    obtain ⟨hu', hi'⟩ := Coordinator.owns_iff.1 own'
    rw [← hu', ← hi', hu, hi]
    exact current
  · exact coherent u i post' old own'

/-- Reading past the cache gives what the store holds and keeps the cache coherent. -/
theorem run_readThrough_agrees (faithful : store.Faithful sound held)
    (forgetful : cache.ForgetfulFor fit peek)
    (fits : ∀ s, sound s → ∀ user id post, held s user id = some post → fit post) (good : sound s)
    (coherent : Coherent (held s) (peek t))
    (user id : String) :
    let step := (Coordinator.readThrough user id).run
      (Coordinator.serve (store.within .first) (cache.within .second)) (s, t)
    step.1 = (store.serve (.read user id) s).1 ∧ step.2.1 = (store.serve (.read user id) s).2 ∧
      Coherent (held step.2.1) (peek step.2.2) := by
  intro step
  have kept := faithful.held_read user id s good
  have answer := faithful.read user id s good
  simp only [step, run_readThrough]
  rcases h : store.serve (.read user id) s with ⟨result, s'⟩
  simp only [h] at kept answer
  cases result with
  | error e => exact ⟨rfl, rfl, by simpa only [kept] using coherent⟩
  | ok post =>
    have current := Catalogue.lookup_eq_ok.1 answer.symm
    refine ⟨rfl, rfl, ?_⟩
    simp only [kept]
    exact coherent.add forgetful (fits s good user id post current) current
      (faithful.own s user id post good current)

/-- As long as the cache lets go of what a call changes, the call answers as the bare store does and
leaves the two coherent. -/
theorem serve_cachedBy_agrees {scope : Call → Prop} {same : σ → σ → Prop} {s' : σ} {call : Call}
    (faithful : store.Faithful sound held) (bisimilar : store.Bisimilar scope same)
    (forgetful : cache.ForgetfulFor fit peek)
    (fits : ∀ s, sound s → ∀ user id post, held s user id = some post → fit post)
    (inScope : scope call) (good : sound s) (alike : same s s')
    (coherent : Coherent (held s) (peek t))
    (settles : Coordinator.Settles store cache peek s t call) :
    let step := (store.cachedBy cache).serve call (s, t)
    step.1 = (store.serve call s').1 ∧ same step.2.1 (store.serve call s').2 ∧
      Coherent (held step.2.1) (peek step.2.2) := by
  intro step
  have answer := bisimilar.answer call s s' inScope alike
  have next := bisimilar.next call s s' inScope alike
  rw [← answer]
  cases call with
  | create user data fresh =>
    have onOk := fun post => faithful.create_ok user data fresh s post good
    have still := faithful.keeps_sound (.create user data fresh) s good
    have onError := fun e => faithful.create_error user data fresh s e good
    simp only [Coordinator.Settles, Cache.Clears] at settles
    simp only [step, serve_create_cachedBy]
    rcases h : store.serve (.create user data fresh) s with ⟨result, after⟩
    simp only [h] at next onOk onError settles still
    cases result with
    | error e => exact ⟨rfl, next, by simpa only [onError e rfl] using coherent⟩
    | ok post =>
      obtain ⟨author, current, elsewhere⟩ := onOk post rfl
      refine ⟨rfl, next, coherent.change elsewhere ?_ ?_⟩
      · -- the new post is no one else's, so what others find of their own was there before
        intro u i post' other found own
        have fitting := fits after still user post.id post current
        rcases forgetful.add _ _ _ _ _ _ _ fitting found with rfl | old
        · obtain ⟨hu, hi⟩ := Coordinator.owns_iff.1 own
          exact absurd ⟨hu.symm.trans author, hi.symm⟩ other
        · exact old
      · intro post' found own
        rw [settles post rfl post' found own]
        exact current
  | read user id =>
    have current := faithful.read user id s good
    by_cases hit : ∃ post, (cache.serve (.get user id) t).1 = some post ∧
        Coordinator.owns user id post = true
    · -- the store would have given the same, and is not asked
      obtain ⟨post, found, own⟩ := hit
      have held_post := coherent user id post (forgetful.get user id t post found) own
      simp only [step, serve_read_cachedBy_hit store cache s t found own]
      refine ⟨?_, bisimilar.skip user id s s' alike, coherent.get forgetful user id⟩
      rw [current]
      exact (Catalogue.lookup_eq_ok.2 held_post).symm
    · have miss : ∀ post, (cache.serve (.get user id) t).1 = some post →
          ¬ Coordinator.owns user id post = true :=
        fun post found own => hit ⟨post, found, own⟩
      simp only [step, serve_read_cachedBy_miss store cache s t miss]
      obtain ⟨h1, h2, h3⟩ := run_readThrough_agrees faithful forgetful fits good
        (coherent.get forgetful user id) user id
      exact ⟨h1, by rw [h2]; exact next, h3⟩
  | readAll user =>
    refine ⟨rfl, next, ?_⟩
    simp only [step, serve_readAll_cachedBy, faithful.held_readAll user s good]
    exact coherent
  | update user id data clock =>
    have elsewhere := fun u i => faithful.update user id data clock s u i good
    have onError := fun e => faithful.update_error user id data clock s e good
    simp only [Coordinator.Settles, Cache.Clears] at settles
    simp only [step, serve_update_cachedBy]
    rcases h : store.serve (.update user id data clock) s with ⟨result, after⟩
    simp only [h] at next elsewhere onError settles
    cases result with
    | error e => exact ⟨rfl, next, by simpa only [onError e rfl] using coherent⟩
    | ok post =>
      -- no copy is left of the post that was changed
      refine ⟨rfl, next, coherent.change elsewhere ?_ ?_⟩
      · exact fun u i post' _ found _ => forgetful.remove user id t u i post' found
      · exact fun post' found own => absurd own (settles post rfl post' found)
  | delete user id =>
    have elsewhere := fun u i => faithful.delete user id s u i good
    refine ⟨rfl, next, coherent.change elsewhere ?_ ?_⟩
    · exact fun u i post' _ found _ => forgetful.remove user id t u i post' found
    · exact fun post' found own => absurd own (settles post' found)

/-- A reader gets what the store gives just when the cache holds no other post of its own for it. -/
theorem serve_read_agrees_iff (faithful : store.Faithful sound held) (good : sound s)
    {user id : String} (exact : (cache.serve (.get user id) t).1 = peek t user id) :
    ((store.cachedBy cache).serve (.read user id) (s, t)).1 = (store.serve (.read user id) s).1 ↔
      ∀ post, peek t user id = some post → Coordinator.owns user id post = true →
        held s user id = some post := by
  by_cases hit : ∃ post, peek t user id = some post ∧ Coordinator.owns user id post = true
  · obtain ⟨post, found, own⟩ := hit
    rw [serve_read_cachedBy_hit _ _ _ _ (exact.trans found) own, faithful.read user id s good,
      eq_comm, Catalogue.lookup_eq_ok]
    constructor
    · intro holds other found' _
      rw [found] at found'
      cases found'
      exact holds
    · exact fun all => all post found own
  · have miss : ∀ post, (cache.serve (.get user id) t).1 = some post →
        ¬ Coordinator.owns user id post = true :=
      fun post found own => hit ⟨post, exact.symm.trans found, own⟩
    rw [serve_read_cachedBy_miss _ _ _ _ miss, run_readThrough]
    constructor
    · exact fun _ post found own => absurd ⟨post, found, own⟩ hit
    · intro _
      rcases store.serve (.read user id) s with ⟨answer | post, after⟩ <;> rfl

end Calls

/-! ## Calls one after the other -/

section Runs

variable {ι ω ω' β κ : Type}

/-- The replies to requests made one after the other. -/
def replies (serve : ι → ω → β × ω) : List ι → ω → List β
  | [], _ => []
  | request :: rest, state => (serve request state).1 :: replies serve rest (serve request state).2

/-- Two servers that reply alike in related states, and stay in related states, cannot be told
apart. -/
theorem replies_eq {serve : ι → ω → β × ω} {serve' : ι → ω' → β × ω'} (related : ω → ω' → Prop)
    (step : ∀ request w w', related w w' → (serve request w).1 = (serve' request w').1 ∧
      related (serve request w).2 (serve' request w').2)
    (requests : List ι) {w : ω} {w' : ω'} (start : related w w') :
    replies serve requests w = replies serve' requests w' := by
  induction requests generalizing w w' with
  | nil => rfl
  | cons request rest ih =>
    obtain ⟨alike, next⟩ := step request w w' start
    rw [replies, replies, alike, ih next]

/-- The state after calls made one after the other. -/
def Store.after (store : Store ω κ) : List Call → ω → ω
  | [], state => state
  | call :: rest, state => store.after rest (store.serve call state).2

theorem Store.after_append (store : Store ω κ) (before rest : List Call) (state : ω) :
    store.after (before ++ rest) state = store.after rest (store.after before state) := by
  induction before generalizing state with
  | nil => rfl
  | cons call before ih => exact ih _

/-- What every call within a scope keeps is kept by calls within it. -/
theorem Store.after_keeps {store : Store ω κ} {scope : Call → Prop} (keep : ω → Prop)
    (each : ∀ call state, scope call → keep state → keep (store.serve call state).2)
    (calls : List Call) :
    ∀ {state : ω}, (∀ call ∈ calls, scope call) → keep state → keep (store.after calls state) := by
  induction calls with
  | nil => exact fun _ good => good
  | cons call rest ih =>
    intro state within good
    have next := each call state (within call List.mem_cons_self) good
    exact ih (fun later member => within later (List.mem_cons_of_mem call member)) next

/-- Serves a call and puts the call beside the answer. -/
def Store.reply (store : Store ω κ) (call : Call) (state : ω) :
    (Σ call : Call, call.Answer κ) × ω :=
  (⟨call, (store.serve call state).1⟩, (store.serve call state).2)

end Runs

end PostStore
