import PostStore.Proofs.Identity
/-!
# Calls that fail leave the entries alone

A store that records its answers shows what reaches it and what the cache may know.  When the store
fails, the failure is passed on as it is and every entry of the cache in memory stays, but for the
one that a removal takes out.  So what is in the cache was given by the store, to a creation or to a
lookup, and what the store has never given is always looked for in the store.
-/

namespace PostStore

open Coordinator

variable {σ κ : Type}

/-! ## A store that records its answers -/

/-- A call that has reached the store, with its answer. -/
abbrev Recorded (κ : Type) : Type := Σ call : Call, call.Answer κ

/-- A store that records the calls that reach it with their answers, latest first. -/
def Store.recorded (store : Store σ κ) : Store (σ × List (Recorded κ)) κ where
  name := store.name
  serve call state :=
    let (answer, s) := store.serve call state.1
    (answer, s, ⟨call, answer⟩ :: state.2)
  feed := (store.within .first).feed

theorem serve_recorded (store : Store σ κ) (call : Call) (s : σ) (record : List (Recorded κ)) :
    store.recorded.serve call (s, record) =
      ((store.serve call s).1, (store.serve call s).2, ⟨call, (store.serve call s).1⟩ :: record) :=
  rfl

/-! ## One call -/

/-- The cache key that a call takes out of the cache even if it fails. -/
def Call.dropped? : Call → Option String
  | .delete user id => some (Post.cacheKey user id)
  | _ => none

/-- The answer that was recorded is the failure. -/
theorem Recorded.fail_of_mem {call asked : Call} {answer : call.Answer κ} {e : StoreError}
    (member : (⟨asked, asked.fail e⟩ : Recorded κ) ∈ [⟨call, answer⟩]) :
    asked = call ∧ answer = call.fail e := by
  obtain ⟨rfl, same⟩ := Sigma.mk.inj (List.mem_singleton.1 member)
  exact ⟨rfl, (eq_of_heq same).symm⟩

/-- A call has ended with a failure, and all entries of the cache are as they were but the one that
a removal takes out. -/
structure PassedOn (κ : Type) {ω : Type} (call : Call) (e : StoreError) (lru : Lru)
    (ended : call.Answer κ × ω × Lru) : Prop where
  answer : ended.1 = call.fail e
  entries : ∀ key, ended.2.2.entries.get? key =
    if call.dropped? = some key then none else lru.entries.get? key

/-- A call that takes nothing out of the cache, asks the store once and passes its failures on
leaves the entries when the store fails. -/
theorem passedOn_of_recorded (store : Store σ κ) (s : σ) (lru : Lru) (call : Call) {asked : Call}
    {e : StoreError} {ended : call.Answer κ × (σ × List (Recorded κ)) × Lru}
    (keeps : call.dropped? = none) (record : ended.2.1.2 = [⟨call, (store.serve call s).1⟩])
    (passing : ∀ e, (store.serve call s).1 = call.fail e →
      ended.1 = call.fail e ∧ ended.2.2 = lru)
    (failed : (⟨asked, asked.fail e⟩ : Recorded κ) ∈ ended.2.1.2) :
    asked = call ∧ PassedOn κ call e lru ended := by
  rw [record] at failed
  obtain ⟨rfl, same⟩ := Recorded.fail_of_mem failed
  obtain ⟨answer, still⟩ := passing e same
  refine ⟨rfl, answer, fun key => ?_⟩
  rw [still, keeps, if_neg (Option.some_ne_none key).symm]

/-- **A call of which the store has recorded a failure gives that failure and leaves the entries of
the cache in memory**, but for the one that a removal takes out. -/
theorem passedOn_of_failed (store : Store σ κ) (s : σ) (lru : Lru) {call asked : Call}
    {e : StoreError}
    (failed : (⟨asked, asked.fail e⟩ : Recorded κ) ∈
      ((store.recorded.cachedBy Lru.cache).serve call ((s, []), lru)).2.1.2) :
    asked = call ∧
      PassedOn κ call e lru ((store.recorded.cachedBy Lru.cache).serve call ((s, []), lru)) := by
  cases call with
  | create user data fresh =>
    rw [serve_create_cachedBy, serve_recorded] at failed ⊢
    refine passedOn_of_recorded store s lru _ rfl ?_ (fun e answer => ?_) failed
    · cases (store.serve (.create user data fresh) s).1 <;> rfl
    · rw [answer]
      exact ⟨rfl, rfl⟩
  | read user id =>
    by_cases hit : ∃ post, (Lru.cache.serve (.get user id) lru).1 = some post ∧
        owns user id post = true
    · -- the store has not been asked
      obtain ⟨post, found, own⟩ := hit
      rw [serve_read_cachedBy_hit _ _ _ _ found own] at failed
      cases failed
    · have miss : ∀ post, (Lru.cache.serve (.get user id) lru).1 = some post →
          ¬ owns user id post = true := fun post found own => hit ⟨post, found, own⟩
      rw [serve_read_cachedBy_miss _ _ _ _ miss, run_readThrough, serve_recorded] at failed ⊢
      obtain ⟨rfl, answer, entries⟩ := passedOn_of_recorded store s
        (Lru.cache.serve (.get user id) lru).2 (.read user id) rfl
        (by cases (store.serve (.read user id) s).1 <;> rfl)
        (fun e answer => by rw [answer]; exact ⟨rfl, rfl⟩) failed
      refine ⟨rfl, answer, fun key => ?_⟩
      rw [entries key]
      exact Lru.get?_get lru (Post.cacheKey user id) key
  | readAll user =>
    exact passedOn_of_recorded store s lru _ rfl rfl (fun e answer => ⟨answer, rfl⟩) failed
  | update user id data clock =>
    rw [serve_update_cachedBy, serve_recorded] at failed ⊢
    refine passedOn_of_recorded store s lru _ rfl ?_ (fun e answer => ?_) failed
    · cases (store.serve (.update user id data clock) s).1 <;> rfl
    · rw [answer]
      exact ⟨rfl, rfl⟩
  | delete user id =>
    -- the entry goes whatever the store answers
    rw [serve_delete_cachedBy, serve_recorded] at failed ⊢
    obtain ⟨rfl, same⟩ := Recorded.fail_of_mem failed
    refine ⟨rfl, same, fun key => ?_⟩
    simp only [Call.dropped?, Option.some.injEq]
    exact Lru.get?_remove lru _ key

/-! ## What the store has given -/

section Given

variable (record : List (Recorded κ))

/-- The store has made a post for a user. -/
def HasMade (user : String) (post : Post) : Prop :=
  ∃ data fresh, (⟨.create user data fresh, .ok post⟩ : Recorded κ) ∈ record

/-- The store has found a post under a user and an identifier. -/
def HasFound (user id : String) (post : Post) : Prop :=
  (⟨.read user id, .ok post⟩ : Recorded κ) ∈ record

/-- The store has given a post that goes under a cache key, because it was made or found there. -/
def GivenUnder (key : String) (post : Post) : Prop :=
  ∃ user id, key = Post.cacheKey user id ∧
    (HasMade record user post ∧ id = post.id ∨ HasFound record user id post)

/-- The store has given a post to a creation or to a lookup. -/
def HasGiven (post : Post) : Prop :=
  (∃ user, HasMade record user post) ∨ ∃ user id, HasFound record user id post

/-- A post that was made or found carries what was asked for. -/
def Recorded.CarriesIds : Recorded κ → Prop
  | ⟨.create user _ _, .ok post⟩ => post.user = user
  | ⟨.read user id, .ok post⟩ => post.user = user ∧ post.id = id
  | _ => True

variable {record} {record' : List (Recorded κ)} {key : String} {post : Post}

theorem HasMade.mono (longer : record ⊆ record') {user : String} (made : HasMade record user post) :
    HasMade record' user post := by
  obtain ⟨data, fresh, made⟩ := made
  exact ⟨data, fresh, longer made⟩

theorem GivenUnder.mono (longer : record ⊆ record') (given : GivenUnder record key post) :
    GivenUnder record' key post := by
  obtain ⟨user, id, place, ⟨made, own⟩ | found⟩ := given
  · exact ⟨user, id, place, .inl ⟨made.mono longer, own⟩⟩
  · exact ⟨user, id, place, .inr (longer found)⟩

theorem GivenUnder.hasGiven (given : GivenUnder record key post) : HasGiven record post := by
  obtain ⟨user, id, _, ⟨made, _⟩ | found⟩ := given
  · exact .inl ⟨user, made⟩
  · exact .inr ⟨user, id, found⟩

/-- Of posts that carry what was asked for, each was given where it belongs. -/
theorem GivenUnder.own (honest : ∀ recorded ∈ record, recorded.CarriesIds)
    (given : GivenUnder record key post) :
    key = post.key ∧ (HasMade record post.user post ∨ HasFound record post.user post.id post) := by
  obtain ⟨user, id, rfl, ⟨⟨data, fresh, made⟩, rfl⟩ | found⟩ := given
  · obtain rfl : post.user = user := honest _ made
    exact ⟨rfl, .inl ⟨data, fresh, made⟩⟩
  · obtain ⟨rfl, rfl⟩ : post.user = user ∧ post.id = id := honest _ found
    exact ⟨rfl, .inr found⟩

end Given

/-! ## Calls taken in turns -/

section Turns

/-- The store has given what is in the cache in memory, and what sessions are about to add to it. -/
structure Coordinator.World.Given (world : World (σ × List (Recorded κ)) Lru κ) : Prop where
  entries : ∀ key post, world.medium.2.entries.get? key = some post →
    GivenUnder world.medium.1.2 key post
  sessions : ∀ session ∈ world.sessions, Stage (HasMade world.medium.1.2)
    (fun user id => GivenUnder world.medium.1.2 (Post.cacheKey user id)) session

variable {world : World (σ × List (Recorded κ)) Lru κ} {session : Session κ}

/-- What the store answers is recorded. -/
theorem mem_serve_recorded (store : Store σ κ) {call : Call} {answer : call.Answer κ}
    {medium : (σ × List (Recorded κ)) × Lru}
    (answered : (serve (store.recorded.within .first) (Lru.cache.within .second) (.store call)
      medium).1 = answer) :
    (⟨call, answer⟩ : Recorded κ) ∈ (serve (store.recorded.within .first)
      (Lru.cache.within .second) (.store call) medium).2.1.2 := by
  subst answered
  exact List.mem_cons_self

/-- Nothing that was recorded is forgotten. -/
theorem subset_serve_recorded (store : Store σ κ) (question : Ask)
    (medium : (σ × List (Recorded κ)) × Lru) :
    medium.1.2 ⊆ (serve (store.recorded.within .first) (Lru.cache.within .second) question
      medium).2.1.2 := by
  cases question with
  | store call => exact List.subset_cons_self _ _
  | cache call => exact List.Subset.refl _

theorem Coordinator.World.record_subset_turn (store : Store σ κ)
    (world : World (σ × List (Recorded κ)) Lru κ) (turn : Turn) :
    world.medium.1.2 ⊆ (world.turn store.recorded Lru.cache turn).medium.1.2 := by
  rcases World.turn_medium store.recorded Lru.cache world turn with same | ⟨session, _, changed⟩
  · rw [same]
    exact List.Subset.refl _
  · rw [changed]
    cases asks : session.question? with
    | none =>
      rw [Session.step_of_ended asks]
      exact List.Subset.refl _
    | some question =>
      rw [Session.step_medium asks]
      exact subset_serve_recorded store question world.medium

/-- A step of a session adds nothing to the cache in memory but what it asks to add. -/
theorem Lru.get?_step {ω : Type} {store : Store ω κ} {s : ω} {lru : Lru} {key : String}
    {post : Post}
    (found : (session.step store Lru.cache (s, lru)).2.2.entries.get? key = some post) :
    lru.entries.get? key = some post ∨
      ∃ user id, session.question? = some (.cache (.add user id post)) ∧
        key = Post.cacheKey user id := by
  cases asks : session.question? with
  | none =>
    rw [Session.step_of_ended asks] at found
    exact .inl found
  | some question =>
    rw [Session.step_medium asks] at found
    cases question with
    | store call => exact .inl found
    | cache call =>
      cases call with
      | get user id =>
        simp only [serve_cache_pair, Lru.cache, Lru.serve, Lru.get?_get] at found
        exact .inl found
      | add user id added =>
        simp only [serve_cache_pair, Lru.cache, Lru.serve] at found
        by_cases here : Post.cacheKey user id = key
        · subst here
          rw [Lru.get?_add_self] at found
          obtain rfl := Option.some.inj found
          exact .inr ⟨user, id, rfl, rfl⟩
        · exact .inl (Lru.get?_of_add here found)
      | remove user id =>
        simp only [serve_cache_pair, Lru.cache, Lru.serve, Lru.get?_remove] at found
        split at found
        · cases found
        · exact .inl found

/-- **One more turn brings nothing into the cache that the store has not given.** -/
theorem Coordinator.World.Given.turn (store : Store σ κ) (given : world.Given) (turn : Turn) :
    (world.turn store.recorded Lru.cache turn).Given := by
  have longer := World.record_subset_turn store world turn
  constructor
  · intro key post found
    rcases World.turn_medium store.recorded Lru.cache world turn with
      same | ⟨session, member, changed⟩
    · rw [same] at found
      exact (given.entries key post found).mono longer
    · rw [changed] at found
      rcases Lru.get?_step found with old | ⟨user, id, asks, rfl⟩
      · exact (given.entries key post old).mono longer
      · rcases (given.sessions session member).of_add asks with ⟨made, own⟩ | known
        · exact GivenUnder.mono longer ⟨user, id, rfl, .inl ⟨made, own⟩⟩
        · exact known.mono longer
  · refine World.stages_turn given.sessions (fun _ _ made => made.mono longer)
      (fun _ _ _ known => known.mono longer) ?_
    intro session _ medium question asks
    rw [medium, Session.step_medium asks]
    unfold Warranted
    split
    · rename_i user data fresh post answer
      exact ⟨data, fresh, mem_serve_recorded store answer⟩
    · rename_i user id post answer
      exact ⟨user, id, rfl, .inr (mem_serve_recorded store answer)⟩
    · -- a hit was given under the key at which it was found, whoever asked for it then
      rename_i user id post answer
      exact fun _ => given.entries _ post ((Lru.get_answer _ _).symm.trans answer)
    · trivial

/-- However the turns fall, the cache in memory contains only what the store has given. -/
theorem Coordinator.World.given_after (store : Store σ κ) (s : σ) (capacity : Nat)
    (turns : List Turn) :
    (World.after store.recorded Lru.cache ⟨((s, []), { capacity }), []⟩ turns).Given := by
  induction turns with
  | nil => exact ⟨fun _ _ found => (by cases found), fun _ member => nomatch member⟩
  | cons turn earlier ih => exact ih.turn store turn

section Never

variable {user id : String}

/-- No lookup in the cache hits what the store has never given. -/
theorem Coordinator.World.Given.not_owns (given : world.Given)
    (never : ∀ post, post.user = user → post.id = id → ¬ HasGiven world.medium.1.2 post)
    (post : Post) (found : (Lru.cache.serve (.get user id) world.medium.2).1 = some post) :
    ¬ owns user id post = true := by
  intro own
  obtain ⟨ownUser, ownId⟩ := owns_iff.1 own
  have held := given.entries _ post ((Lru.get_answer _ _).symm.trans found)
  exact never post ownUser ownId held.hasGiven

/-- Only a lookup that begins asks the cache for a post. -/
theorem Coordinator.Stage.of_get {made : String → Post → Prop}
    {found : String → String → Post → Prop} (stage : Stage made found session)
    (asks : session.question? = some (.cache (.get user id))) :
    session = ⟨.read user id, perform (.read user id)⟩ := by
  cases stage with
  | begun call =>
    cases call with
    | create user data fresh =>
      rw [perform_create] at asks
      cases asks
    | read user id =>
      rw [perform_read] at asks
      cases asks
      rfl
    | readAll user => cases asks
    | update user id data clock =>
      rw [perform_update] at asks
      cases asks
    | delete user id => cases asks
  | addingNew h => cases asks
  | missed =>
    rw [readThrough_eq] at asks
    cases asks
  | addingFound h => cases asks
  | changed => cases asks
  | deleted => cases asks
  | answered h => cases asks

/-- A lookup of what the store has never given goes on to the store. -/
theorem Coordinator.World.Given.step_read (store : Store σ κ) (given : world.Given)
    (never : ∀ post, post.user = user → post.id = id → ¬ HasGiven world.medium.1.2 post)
    (member : session ∈ world.sessions)
    (asks : session.question? = some (.cache (.get user id))) :
    (session.step store.recorded Lru.cache world.medium).1.question? =
      some (.store (.read user id)) := by
  rw [(given.sessions session member).of_get asks, perform_read]
  have miss := given.not_owns never
  obtain ⟨⟨state, lru⟩, sessions⟩ := world
  simp only [Session.step, serve_cache_pair]
  cases found : (Lru.cache.serve (.get user id) lru).1 with
  | none =>
    simp only [readThrough_eq]
    rfl
  | some post =>
    simp only [if_neg (miss post found), readThrough_eq]
    rfl

/-- Made on its own, such a lookup reaches the store, and gives the answer that is recorded. -/
theorem Coordinator.World.Given.serve_read (store : Store σ κ) (given : world.Given)
    (never : ∀ post, post.user = user → post.id = id → ¬ HasGiven world.medium.1.2 post) :
    let ended := (store.recorded.cachedBy Lru.cache).serve (.read user id) world.medium
    ended.2.1.2 = ⟨.read user id, ended.1⟩ :: world.medium.1.2 := by
  obtain ⟨⟨⟨s, record⟩, lru⟩, sessions⟩ := world
  rw [serve_read_cachedBy_miss _ _ _ _ (given.not_owns never), run_readThrough, serve_recorded]
  cases answer : (store.serve (.read user id) s).1 <;> rfl

end Never

end Turns

/-- **Failed calls leave the entries of the cache in memory alone, and nothing else gets in.**  In
any state, a call that the store fails gives the failure as it is and keeps every entry, but for the
one that a removal takes out.  However calls are taken in turns from an empty cache of any capacity:
if what the store gives carries the ids asked for, each entry was given by a creation or a lookup of
the ids that it carries; and a lookup of what the store has never given goes on to the store, and
made on its own gives what the store answers. -/
theorem failed_calls_spare_entries (store : Store σ κ) :
    (∀ (s : σ) (lru : Lru) (call asked : Call) (e : StoreError),
      let ended := (store.recorded.cachedBy Lru.cache).serve call ((s, []), lru)
      (⟨asked, asked.fail e⟩ : Recorded κ) ∈ ended.2.1.2 →
        asked = call ∧ PassedOn κ call e lru ended) ∧
    ∀ (s : σ) (capacity : Nat) (turns : List Turn),
      let world := World.after store.recorded Lru.cache ⟨((s, []), { capacity }), []⟩ turns
      let record := world.medium.1.2
      ((∀ recorded ∈ record, recorded.CarriesIds) →
        ∀ key post, world.medium.2.entries.get? key = some post → key = post.key ∧
          (HasMade record post.user post ∨ HasFound record post.user post.id post)) ∧
      ∀ user id, (∀ post, post.user = user → post.id = id → ¬ HasGiven record post) →
        (∀ session ∈ world.sessions, session.question? = some (.cache (.get user id)) →
          (session.step store.recorded Lru.cache world.medium).1.question? =
            some (.store (.read user id))) ∧
        let ended := (store.recorded.cachedBy Lru.cache).serve (.read user id) world.medium
        ended.2.1.2 = ⟨.read user id, ended.1⟩ :: record := by
  refine ⟨fun s lru call asked e => passedOn_of_failed store s lru, ?_⟩
  intro s capacity turns
  have given := World.given_after store s capacity turns
  refine ⟨fun honest key post found => (given.entries key post found).own honest, ?_⟩
  intro user id never
  exact ⟨fun session member => given.step_read store never member, given.serve_read store never⟩

/-- A post is made, and someone who shares its key looks for another in vain. -/
theorem failed_calls_spare_entries_aliases :
    let yours : Post := Post.make "a#b" "yours" ⟨"c", default⟩
    let turns : List Turn := [.step 0, .step 0, .begin (.create "a#b" "yours" ⟨"c", default⟩)]
    let world : World (Memory × List (Recorded Snapshot)) Lru Snapshot :=
      World.after Memory.store.recorded Lru.cache ⟨(({}, []), { capacity := 1 }), []⟩ turns
    let store := Memory.store.recorded.cachedBy Lru.cache
    world.medium.2.entries.get? yours.key = some yours ∧
      (HasMade world.medium.1.2 "a#b" yours ∨ HasFound world.medium.1.2 "a#b" "c" yours) ∧
      PassedOn Snapshot (.read "a" "b#c") (.notFound "a" "b#c") world.medium.2
        (store.serve (.read "a" "b#c") (({}, []), world.medium.2)) ∧
      (store.serve (.read "a" "b#c") world.medium).2.1.2.length = 2 := by
  intro yours turns world store
  obtain ⟨failing, running⟩ := failed_calls_spare_entries Memory.store
  obtain ⟨entries, reaching⟩ := running {} 1 turns
  have recorded : world.medium.1.2 = [⟨.create "a#b" "yours" ⟨"c", default⟩, .ok yours⟩] := rfl
  have honest : ∀ recorded ∈ world.medium.1.2, recorded.CarriesIds := by
    intro exchange member
    rw [recorded] at member
    obtain rfl := List.mem_singleton.1 member
    rfl
  have never : ∀ post, post.user = "a" → post.id = "b#c" → ¬ HasGiven world.medium.1.2 post := by
    intro post own _ given
    rw [recorded] at given
    rcases given with ⟨user, data, fresh, made⟩ | ⟨user, id, found⟩
    · cases List.mem_singleton.1 made
      exact absurd own (by decide)
    · cases List.mem_singleton.1 found
  refine ⟨rfl, (entries honest yours.key yours rfl).2, ?_, ?_⟩
  · exact (failing {} world.medium.2 _ _ _ (List.mem_singleton.2 rfl)).2
  · exact congrArg List.length (reaching "a" "b#c" never).2

end PostStore
