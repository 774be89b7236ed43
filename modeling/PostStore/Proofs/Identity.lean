import PostStore.Proofs.Interleaving
import PostStore.Proofs.LruTransparency
/-!
# Whose post a reader gets

A reader gets a post of the user and with the identifier asked for, from any cache and however calls
are taken in turns.  When the cache in memory starts empty and no one else writes to it, the store
has held that very post under them.
-/

namespace PostStore

open Coordinator

variable {σ τ κ : Type}

/-! ## Honest stores -/

/-- In sound states, the posts that the store gives for a creation and a lookup are held under the
user and identifier that they carry, for a lookup those that were asked for. -/
structure Store.Honest (store : Store σ κ) (sound : σ → Prop) (held : σ → Catalogue) : Prop where
  keeps_sound : ∀ call s, sound s → sound (store.serve call s).2
  create : ∀ user data fresh s post, sound s →
    (store.serve (.create user data fresh) s).1 = .ok post →
      held (store.serve (.create user data fresh) s).2 post.user post.id = some post
  read : ∀ user id s post, sound s → (store.serve (.read user id) s).1 = .ok post →
    owns user id post = true ∧ held (store.serve (.read user id) s).2 post.user post.id = some post

/-- A healthy store is honest. -/
theorem Store.Healthy.honest {store : Store σ κ} {sound : σ → Prop} {held : σ → Catalogue}
    (healthy : store.Healthy sound held) : store.Honest sound held where
  keeps_sound := healthy.keeps_sound
  create user data fresh s post good answer := by
    obtain ⟨made, after⟩ := healthy.create user data fresh s good
    have new : Post.make user data fresh = post := Except.ok.inj (made.symm.trans answer)
    rw [after, ← new]
    exact Catalogue.file_self _ _
  read user id s post good answer := by
    obtain ⟨found, own⟩ := healthy.read_own good answer
    obtain ⟨hu, hi⟩ := owns_iff.1 own
    rw [(healthy.read user id s good).2, hu, hi]
    exact ⟨own, found⟩

/-! ## Disturbed worlds -/

/-- A turn, or others replacing what the cache contains. -/
inductive Event (τ : Type) where
  | turn (turn : Turn)
  | meddle (contents : τ)

/-- The world after one more event. -/
def Coordinator.World.event (store : Store σ κ) (cache : Cache τ) (world : World σ τ κ) :
    Event τ → World σ τ κ
  | .turn turn => world.turn store cache turn
  | .meddle contents => { world with medium := (world.medium.1, contents) }

/-- The world after a history of events, the latest of which comes first. -/
def Coordinator.World.amid (store : Store σ κ) (cache : Cache τ) (world : World σ τ κ) :
    List (Event τ) → World σ τ κ
  | [] => world
  | event :: earlier => (amid store cache world earlier).event store cache event

section Steps

variable {store : Store σ κ} {cache : Cache τ} {session : Session κ}

/-- A step of a session adds nothing to a forgetful cache but what it asks to add. -/
theorem Cache.Forgetful.step {peek : τ → Catalogue} (forgetful : cache.Forgetful peek) {s : σ}
    {t : τ} {u i : String} {post : Post}
    (found : peek (session.step store cache (s, t)).2.2 u i = some post) :
    peek t u i = some post ∨
      ∃ user id, session.question? = some (.cache (.add user id post)) := by
  cases asks : session.question? with
  | none =>
    rw [Session.step_of_ended asks] at found
    exact .inl found
  | some question =>
    rw [Session.step_medium asks] at found
    cases question with
    | store call => exact .inl found
    | cache call =>
      cases call with
      | get user id => exact .inl (forgetful.get_keeps user id t u i post found)
      | add user id added =>
        rcases forgetful.add user id added t u i post trivial found with rfl | old
        · exact .inr ⟨user, id, rfl⟩
        · exact .inl old
      | remove user id => exact .inl (forgetful.remove user id t u i post found)

end Steps

/-! ## Identity, whatever the cache -/

/-- Sessions that hand over only posts of the user and with the identifier asked for. -/
def Coordinator.World.Discreet (world : World σ τ κ) : Prop :=
  ∀ session ∈ world.sessions,
    Stage (fun _ _ => True) (fun user id post => owns user id post = true) session

section Discreet

variable {store : Store σ κ} {cache : Cache τ} {sound : σ → Prop} {held : σ → Catalogue}
  {world : World σ τ κ}

/-- However the events fall, the store stays sound and the sessions discreet. -/
theorem discreet_amid (honest : store.Honest sound held) (good : sound world.medium.1)
    (discreet : world.Discreet) (events : List (Event τ)) :
    sound (world.amid store cache events).medium.1 ∧
      (world.amid store cache events).Discreet := by
  induction events with
  | nil => exact ⟨good, discreet⟩
  | cons event earlier ih =>
    obtain ⟨good, discreet⟩ := ih
    cases event with
    | meddle contents => exact ⟨good, discreet⟩
    | turn turn =>
      refine ⟨World.turn_sound honest.keeps_sound good turn, ?_⟩
      refine World.stages_turn discreet (fun _ _ h => h) (fun _ _ _ h => h) ?_
      intro session _ _ question _
      -- the coordinator itself checks what the cache gives; the store is honest
      unfold Warranted
      split
      · trivial
      · rename_i answer
        exact (honest.read _ _ _ _ good answer).1
      · exact fun own => own
      · trivial

end Discreet

/-! ## Provenance, from the cache in memory -/

section Provenance

variable (store : Store σ κ) (cache : Cache τ) (held : σ → Catalogue) (world : World σ τ κ)

/-- Whether at some moment of a history the store held a post under its user and identifier. -/
def Coordinator.World.HasHeld (history : List Turn) (post : Post) : Prop :=
  ∃ earlier, earlier <:+ history ∧
    held (world.after store cache earlier).medium.1 post.user post.id = some post

/-- After a history, all posts in the sessions and in the cache have been held by the store. -/
structure Coordinator.World.Sourced (sound : σ → Prop) (peek : τ → Catalogue)
    (history : List Turn) : Prop where
  good : sound (world.after store cache history).medium.1
  sessions : ∀ session ∈ (world.after store cache history).sessions,
    Stage (fun _ post => world.HasHeld store cache held history post)
      (fun user id post => owns user id post = true ∧ world.HasHeld store cache held history post)
      session
  entries : ∀ user id post, peek (world.after store cache history).medium.2 user id = some post →
    world.HasHeld store cache held history post

variable {store cache held world}

theorem hasHeld_cons {history : List Turn} {post : Post} (turn : Turn)
    (h : world.HasHeld store cache held history post) :
    world.HasHeld store cache held (turn :: history) post := by
  obtain ⟨earlier, suffix, found⟩ := h
  exact ⟨earlier, suffix.trans (List.suffix_cons turn history), found⟩

/-- One more turn brings no post that the store has not held. -/
theorem sourced_turn {sound : σ → Prop} {peek : τ → Catalogue} (honest : store.Honest sound held)
    (forgetful : cache.Forgetful peek) {history : List Turn}
    (sourced : world.Sourced store cache held sound peek history) (turn : Turn) :
    world.Sourced store cache held sound peek (turn :: history) := by
  have hasHeld : ∀ post, world.HasHeld store cache held history post →
      world.HasHeld store cache held (turn :: history) post := fun _ => hasHeld_cons turn
  refine ⟨World.turn_sound honest.keeps_sound sourced.good turn, ?_, ?_⟩
  · refine World.stages_turn sourced.sessions (fun _ => hasHeld)
      (fun _ _ post h => ⟨h.1, hasHeld post h.2⟩) ?_
    intro session member medium question asks
    -- what the store has just told was held right after this turn
    have now : ∀ post, held (serve (store.within .first) (cache.within .second) question
        (world.after store cache history).medium).2.1 post.user post.id = some post →
        world.HasHeld store cache held (turn :: history) post := by
      intro post found
      refine ⟨turn :: history, List.suffix_rfl, ?_⟩
      rw [World.after, medium, Session.step_medium asks]
      exact found
    unfold Warranted
    split
    · rename_i answer
      exact now _ (honest.create _ _ _ _ _ sourced.good answer)
    · rename_i answer
      obtain ⟨own, found⟩ := honest.read _ _ _ _ sourced.good answer
      exact ⟨own, now _ found⟩
    · rename_i user id post answer
      exact fun own => ⟨own, hasHeld post (sourced.entries user id post
        (forgetful.get user id _ post answer))⟩
    · trivial
  · intro u i post found
    rcases World.turn_medium store cache (world.after store cache history) turn with
      same | ⟨session, member, changed⟩
    · rw [World.after, same] at found
      exact hasHeld post (sourced.entries u i post found)
    · rw [World.after, changed] at found
      rcases forgetful.step found with old | ⟨user, id, asks⟩
      · exact hasHeld post (sourced.entries u i post old)
      · rcases (sourced.sessions session member).of_add asks with ⟨made, _⟩ | ⟨_, known⟩
        · exact hasHeld post made
        · exact hasHeld post known

/-- However the turns fall, no post comes up that the store has not held. -/
theorem sourced_after {sound : σ → Prop} {peek : τ → Catalogue} (honest : store.Honest sound held)
    (forgetful : cache.Forgetful peek) (good : sound world.medium.1) (idle : world.sessions = [])
    (empty : ∀ user id, peek world.medium.2 user id = none) (history : List Turn) :
    world.Sourced store cache held sound peek history := by
  induction history with
  | nil =>
    refine ⟨good, ?_, ?_⟩
    · intro session member
      rw [World.after, idle] at member
      cases member
    · intro user id post found
      rw [World.after, empty] at found
      cases found
  | cons turn earlier ih => exact sourced_turn honest forgetful ih turn

end Provenance

/-- **No post is ever given under another identity.**  Over an honest store, a reader gets a post of
the user and with the identifier asked for, from any cache that others meddle with at will; and from
the cache in memory, started empty and left alone, one that the store has held under them. -/
theorem read_identity {store : Store σ κ} {sound : σ → Prop} {held : σ → Catalogue}
    (honest : store.Honest sound held) {s : σ} (good : sound s) :
    (∀ {τ : Type} (cache : Cache τ) (contents : τ) (events : List (Event τ)) (user id : String)
        (post : Post),
      ⟨.read user id, .done (.ok post)⟩ ∈
        (World.amid store cache ⟨(s, contents), []⟩ events).sessions →
      post.user = user ∧ post.id = id) ∧
    (∀ (capacity : Nat) (history : List Turn) (user id : String) (post : Post),
      ⟨.read user id, .done (.ok post)⟩ ∈
        (World.after store Lru.cache ⟨(s, { capacity }), []⟩ history).sessions →
      post.user = user ∧ post.id = id ∧ ∃ earlier, earlier <:+ history ∧
        held (World.after store Lru.cache ⟨(s, { capacity }), []⟩ earlier).medium.1 user id =
          some post) := by
  constructor
  · intro τ cache contents events user id post member
    have discreet : (World.amid store cache ⟨(s, contents), []⟩ events).Discreet :=
      (discreet_amid honest good (fun _ h => absurd h List.not_mem_nil) events).2
    exact owns_iff.1 ((discreet _ member).of_done rfl)
  · intro capacity history user id post member
    have sourced : World.Sourced store Lru.cache held ⟨(s, { capacity }), []⟩ sound Lru.peek
        history := sourced_after honest Lru.forgetful good rfl (fun _ _ => rfl) history
    obtain ⟨own, held⟩ := (sourced.sessions _ member).of_done rfl
    -- the post was held under the identity that it carries, which is the one asked for
    obtain ⟨rfl, rfl⟩ := owns_iff.1 own
    exact ⟨rfl, rfl, held⟩

/-- Two posts under one cache key, and others putting one of them in the place of the other: each
reader still gets its own. -/
theorem read_identity_aliases :
    let own : Post := Post.make "a" "mine" ⟨"b#c", default⟩
    let foreign : Post := Post.make "a#b" "yours" ⟨"c", default⟩
    let disturbed : World Memory Lru Snapshot :=
      World.amid Memory.store Lru.cache ⟨({}, { capacity := 1 }), []⟩
        [.turn (.step 1), .turn (.step 1), .turn (.step 1), .turn (.begin (.read "a" "b#c")),
          .meddle { capacity := 1, entries := [("a#b#c", foreign)] }, .turn (.step 0),
          .turn (.step 0), .turn (.begin (.create "a" "mine" ⟨"b#c", default⟩))]
    let history : List Turn :=
      [.step 1, .begin (.read "a#b" "c"), .step 0, .step 0,
        .begin (.create "a#b" "yours" ⟨"c", default⟩)]
    let alone : World Memory Lru Snapshot :=
      World.after Memory.store Lru.cache ⟨({}, { capacity := 1 }), []⟩ history
    (⟨.read "a" "b#c", .done (.ok own)⟩ ∈ disturbed.sessions ∧ own.user = "a" ∧ own.id = "b#c") ∧
      ⟨.read "a#b" "c", .done (.ok foreign)⟩ ∈ alone.sessions ∧
      foreign.user = "a#b" ∧ foreign.id = "c" ∧ ∃ earlier, earlier <:+ history ∧
        (World.after Memory.store Lru.cache ⟨({}, { capacity := 1 }), []⟩ earlier).medium.1.find?
          "a#b" "c" = some foreign := by
  intro own foreign disturbed history alone
  have disturbed_member : ⟨.read "a" "b#c", .done (.ok own)⟩ ∈ disturbed.sessions :=
    List.mem_of_getElem? (i := 1) rfl
  have alone_member : ⟨.read "a#b" "c", .done (.ok foreign)⟩ ∈ alone.sessions :=
    List.mem_of_getElem? (i := 1) rfl
  obtain ⟨amid, after⟩ := read_identity Memory.healthy.honest Memory.filed_empty
  exact ⟨⟨disturbed_member, amid Lru.cache _ _ _ _ _ disturbed_member⟩, alone_member,
    after 1 history _ _ _ alone_member⟩

end PostStore
