import PostStore.Proofs.Coordinator
/-!
# Calls taken in turns

Calls that the coordinator handles at the same time share a store and a cache.  Each call is a
session; a turn lets a new call begin or has the next question of a session answered.  However the
turns fall, a session is always at one of a few points of its dialogue, and what it carries along is
what the store or the cache has told it.
-/

namespace PostStore

namespace Coordinator

variable {σ τ κ : Type}

/-! ## Sessions -/

/-- A call that is being handled, with what is left of its dialogue. -/
structure Session (κ : Type) where
  call : Call
  rest : Talk κ (call.Answer κ)

namespace Session

/-- A call that begins. -/
def start (call : Call) : Session κ := ⟨call, perform call⟩

/-- Whether the call has been answered. -/
def ended : Session κ → Bool
  | ⟨_, .done _⟩ => true
  | ⟨_, .ask _ _⟩ => false

/-- What the session asks next. -/
def question? : Session κ → Option Ask
  | ⟨_, .done _⟩ => none
  | ⟨_, .ask question _⟩ => some question

/-- Has the next question answered. -/
def step (store : Store σ κ) (cache : Cache τ) : Session κ → σ × τ → Session κ × (σ × τ)
  | ⟨call, .done answer⟩, medium => (⟨call, .done answer⟩, medium)
  | ⟨call, .ask question next⟩, medium =>
    let (reply, medium) := serve (store.within .first) (cache.within .second) question medium
    (⟨call, next reply⟩, medium)

variable {store : Store σ κ} {cache : Cache τ} {session : Session κ} {medium : σ × τ}

theorem step_of_ended (h : session.question? = none) :
    session.step store cache medium = (session, medium) := by
  obtain ⟨call, answer | ⟨question, next⟩⟩ := session
  · rfl
  · cases h

/-- A step changes the medium as the question that it asks does. -/
theorem step_medium {question : Ask} (h : session.question? = some question) :
    (session.step store cache medium).2 =
      (serve (store.within .first) (cache.within .second) question medium).2 := by
  obtain ⟨call, answer | ⟨asked, next⟩⟩ := session
  · cases h
  · cases h
    rfl

end Session

/-! ## Turns -/

/-- A call begins, or the next question of a session is answered. -/
inductive Turn where
  | begin (call : Call)
  | step (index : Nat)
  deriving DecidableEq

/-- A store and a cache with the sessions that share them, in the order in which they began. -/
structure World (σ τ κ : Type) where
  medium : σ × τ
  sessions : List (Session κ) := []

namespace World

variable (store : Store σ κ) (cache : Cache τ)

/-- The world after one more turn. -/
def turn (world : World σ τ κ) : Turn → World σ τ κ
  | .begin call => { world with sessions := world.sessions ++ [.start call] }
  | .step index =>
    match world.sessions[index]? with
    | none => world
    | some session =>
      ⟨(session.step store cache world.medium).2,
        world.sessions.set index (session.step store cache world.medium).1⟩

/-- The world after a history of turns, the latest of which comes first. -/
def after (world : World σ τ κ) : List Turn → World σ τ κ
  | [] => world
  | turn :: earlier => (after world earlier).turn store cache turn

/-- Whether no call is being handled. -/
def quiet (world : World σ τ κ) : Bool := world.sessions.all Session.ended

variable {store cache} {world : World σ τ κ} {session : Session κ}

theorem turn_step_none {index : Nat} (h : world.sessions[index]? = none) :
    world.turn store cache (.step index) = world := by
  simp only [turn, h]

theorem turn_step_some {index : Nat} (h : world.sessions[index]? = some session) :
    world.turn store cache (.step index) =
      ⟨(session.step store cache world.medium).2,
        world.sessions.set index (session.step store cache world.medium).1⟩ := by
  simp only [turn, h]

/-- A turn leaves the medium as it is, or changes it as the step of a session does. -/
theorem turn_medium (store : Store σ κ) (cache : Cache τ) (world : World σ τ κ) (turn : Turn) :
    (world.turn store cache turn).medium = world.medium ∨
      ∃ session ∈ world.sessions,
        (world.turn store cache turn).medium = (session.step store cache world.medium).2 := by
  cases turn with
  | begin call => exact .inl rfl
  | step index =>
    cases found : world.sessions[index]? with
    | none => exact .inl (by rw [turn_step_none found])
    | some session =>
      exact .inr ⟨session, List.mem_of_getElem? found, by rw [turn_step_some found]⟩

/-- What every call of the store keeps is kept by the step of a session. -/
theorem step_sound {sound : σ → Prop} (keeps : ∀ call s, sound s → sound (store.serve call s).2)
    {medium : σ × τ} (good : sound medium.1) : sound (session.step store cache medium).2.1 := by
  cases asks : session.question? with
  | none => rwa [Session.step_of_ended asks]
  | some question =>
    rw [Session.step_medium asks]
    cases question with
    | store call => exact keeps call medium.1 good
    | cache call => exact good

/-- What every call of the store keeps is kept by a turn. -/
theorem turn_sound {sound : σ → Prop} (keeps : ∀ call s, sound s → sound (store.serve call s).2)
    (good : sound world.medium.1) (turn : Turn) :
    sound (world.turn store cache turn).medium.1 := by
  rcases turn_medium store cache world turn with
    same | ⟨session, _, changed⟩
  · rwa [same]
  · rw [changed]
    exact step_sound keeps good

/-- After a turn, a session was there before, has just begun or has just taken a step. -/
theorem mem_sessions_turn {turn : Turn} (h : session ∈ (world.turn store cache turn).sessions) :
    session ∈ world.sessions ∨ (∃ call, session = .start call) ∨
      ∃ before ∈ world.sessions, session = (before.step store cache world.medium).1 ∧
        (world.turn store cache turn).medium = (before.step store cache world.medium).2 := by
  cases turn with
  | begin call =>
    rcases List.mem_append.1 h with old | new
    · exact .inl old
    · exact .inr (.inl ⟨call, List.mem_singleton.1 new⟩)
  | step index =>
    cases found : world.sessions[index]? with
    | none => exact .inl (by rwa [turn_step_none found] at h)
    | some before =>
      rw [turn_step_some found] at h ⊢
      rcases List.mem_or_eq_of_mem_set h with old | new
      · exact .inl old
      · exact .inr (.inr ⟨before, List.mem_of_getElem? found, new, rfl⟩)

end World

/-! ## The points of a dialogue -/

/-- What holds of the answer to a call when only posts `found` under what was asked for are given to
a reader. -/
def Served (found : String → String → Post → Prop) : (call : Call) → call.Answer κ → Prop
  | .read user id, .ok post => found user id post
  | _, _ => True

/-- What holds of a reply when the store has `made` each new post for its user, and what is `found`
under a user and an identifier comes from the store or is the caller's own. -/
def Warranted (made : String → Post → Prop) (found : String → String → Post → Prop) :
    (question : Ask) → question.Reply κ → Prop
  | .store (.create user _ _), .ok post => made user post
  | .store (.read user id), .ok post => found user id post
  | .cache (.get user id), some post => owns user id post = true → found user id post
  | _, _ => True

/-- The points at which a session can be, with posts that are made for users or found under what was
asked for. -/
inductive Stage (made : String → Post → Prop) (found : String → String → Post → Prop) :
    Session κ → Prop
  | begun (call : Call) : Stage made found ⟨call, perform call⟩
  | addingNew {user data : String} {fresh : Fresh} {post : Post} (h : made user post) :
      Stage made found ⟨.create user data fresh, fill user post.id post (.ok post)⟩
  | missed {user id : String} : Stage made found ⟨.read user id, readThrough user id⟩
  | addingFound {user id : String} {post : Post} (h : found user id post) :
      Stage made found ⟨.read user id, fill user id post (.ok post)⟩
  | changed {user id data : String} {clock : ClockReading} {post : Post} :
      Stage made found ⟨.update user id data clock, forget user id (.ok post)⟩
  | deleted {user id : String} {answer : Except StoreError Unit} :
      Stage made found ⟨.delete user id, forget user id answer⟩
  | answered {call : Call} {answer : call.Answer κ} (h : Served found call answer) :
      Stage made found ⟨call, .done answer⟩

namespace Stage

variable {made made' : String → Post → Prop} {found found' : String → String → Post → Prop}
  {session : Session κ}

/-- Weaker promises hold at the same points. -/
theorem mono (stage : Stage made found session)
    (ofMade : ∀ user post, made user post → made' user post)
    (ofFound : ∀ user id post, found user id post → found' user id post) :
    Stage made' found' session := by
  cases stage with
  | begun call => exact .begun call
  | addingNew h => exact .addingNew (ofMade _ _ h)
  | missed => exact .missed
  | addingFound h => exact .addingFound (ofFound _ _ _ h)
  | changed => exact .changed
  | deleted => exact .deleted
  | @answered call answer h =>
    refine .answered ?_
    unfold Served at h ⊢
    split
    · exact ofFound _ _ _ h
    · trivial

/-- **A session goes from one of the points to another as long as the replies are warranted.** -/
theorem step {store : Store σ κ} {cache : Cache τ} (stage : Stage made found session)
    (medium : σ × τ)
    (warranted : ∀ question, session.question? = some question → Warranted made found question
      (serve (store.within .first) (cache.within .second) question medium).1) :
    Stage made found (session.step store cache medium).1 := by
  obtain ⟨s, t⟩ := medium
  cases stage with
  | begun call =>
    cases call with
    | create user data fresh =>
      rw [perform_create] at warranted ⊢
      have made := warranted _ rfl
      simp only [serve_store_pair] at made
      simp only [Session.step, serve_store_pair]
      cases result : (store.serve (.create user data fresh) s).1 with
      | error e => exact .answered trivial
      | ok post =>
        rw [result] at made
        exact .addingNew made
    | read user id =>
      rw [perform_read] at warranted ⊢
      have found := warranted _ rfl
      simp only [serve_cache_pair] at found
      simp only [Session.step, serve_cache_pair]
      cases result : (cache.serve (.get user id) t).1 with
      | none => exact .missed
      | some post =>
        -- only a post of the caller's own is handed over, and only for that is there a warrant
        by_cases own : owns user id post = true
        · rw [result] at found
          simp only [if_pos own]
          exact .answered (found own)
        · simp only [if_neg own]
          exact .missed
    | readAll user => exact .answered trivial
    | update user id data clock =>
      rw [perform_update]
      simp only [Session.step, serve_store_pair]
      cases (store.serve (.update user id data clock) s).1 with
      | error e => exact .answered trivial
      | ok post => exact .changed
    | delete user id => exact .deleted
  | addingNew h => exact .answered trivial
  | @missed user id =>
    rw [readThrough_eq] at warranted ⊢
    have found := warranted _ rfl
    simp only [serve_store_pair] at found
    simp only [Session.step, serve_store_pair]
    cases result : (store.serve (.read user id) s).1 with
    | error e => exact .answered trivial
    | ok post =>
      rw [result] at found
      exact .addingFound found
  | addingFound h => exact .answered h
  | changed => exact .answered trivial
  | deleted => exact .answered trivial
  | answered h => exact .answered h

/-- What a session is about to add to the cache is a post made for the user, under its own
identifier, or one found under what was asked for. -/
theorem of_add (stage : Stage made found session) {user id : String} {post : Post}
    (asks : session.question? = some (.cache (.add user id post))) :
    made user post ∧ id = post.id ∨ found user id post := by
  cases stage with
  | begun call =>
    cases call with
    | create user data fresh =>
      rw [perform_create] at asks
      cases asks
    | read user id =>
      rw [perform_read] at asks
      cases asks
    | readAll user => cases asks
    | update user id data clock =>
      rw [perform_update] at asks
      cases asks
    | delete user id => cases asks
  | addingNew h =>
    cases asks
    exact .inl ⟨h, rfl⟩
  | missed =>
    rw [readThrough_eq] at asks
    cases asks
  | addingFound h =>
    cases asks
    exact .inr h
  | changed => cases asks
  | deleted => cases asks
  | answered h => cases asks

/-- A call that has been answered was answered with what was found. -/
theorem of_done (stage : Stage made found session) {call : Call} {answer : call.Answer κ}
    (done : session = ⟨call, .done answer⟩) : Served found call answer := by
  cases stage with
  | begun begun =>
    cases begun with
    | create user data fresh =>
      rw [perform_create] at done
      cases done
    | read user id =>
      rw [perform_read] at done
      cases done
    | readAll user => cases done
    | update user id data clock =>
      rw [perform_update] at done
      cases done
    | delete user id => cases done
  | addingNew h => cases done
  | missed =>
    rw [readThrough_eq] at done
    cases done
  | addingFound h => cases done
  | changed => cases done
  | deleted => cases done
  | answered h =>
    cases done
    exact h

end Stage

/-- **After a turn all sessions are at one of the points, as long as the replies are warranted.** -/
theorem World.stages_turn {store : Store σ κ} {cache : Cache τ} {world : World σ τ κ} {turn : Turn}
    {made made' : String → Post → Prop} {found found' : String → String → Post → Prop}
    (stages : ∀ session ∈ world.sessions, Stage made found session)
    (ofMade : ∀ user post, made user post → made' user post)
    (ofFound : ∀ user id post, found user id post → found' user id post)
    (warranted : ∀ session ∈ world.sessions,
      (world.turn store cache turn).medium = (session.step store cache world.medium).2 →
      ∀ question, session.question? = some question → Warranted made' found' question
        (serve (store.within .first) (cache.within .second) question world.medium).1) :
    ∀ session ∈ (world.turn store cache turn).sessions, Stage made' found' session := by
  intro session member
  rcases mem_sessions_turn member with old | ⟨call, rfl⟩ | ⟨before, old, rfl, medium⟩
  · exact (stages session old).mono ofMade ofFound
  · exact .begun call
  · exact ((stages before old).mono ofMade ofFound).step world.medium (warranted before old medium)

end Coordinator

end PostStore
