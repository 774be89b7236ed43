import PostStore.Proofs.Identity
/-!
# Copies that come late

A reader that has missed reads the store and then adds what it found to the cache.  When the post is
changed or removed in between, the copy comes late: the removal from the cache that goes with the
change has been made already, and the copy stays until it is dropped.  In a world in which no call
is being handled, the late copies are those that the store does not hold, and there are no others.
-/

namespace PostStore

/-- Whether the store in memory holds a post under its user and identifier. -/
def Memory.holds (memory : Memory) (post : Post) : Bool :=
  memory.find? post.user post.id = some post

namespace Coordinator

/-! ## Late additions -/

section Definitions

variable {σ τ κ : Type}

/-- The cache key under which a session is about to add or remove. -/
def Session.pendingKey? (session : Session κ) : Option String :=
  match session.question? with
  | some (.cache (.add user id _)) => some (Post.cacheKey user id)
  | some (.cache (.remove user id)) => some (Post.cacheKey user id)
  | _ => none

/-- What a turn adds to the cache, with the cache key. -/
def World.addition? (world : World σ τ κ) : Turn → Option (String × Post)
  | .begin _ => none
  | .step index =>
    match world.sessions[index]?.bind Session.question? with
    | some (.cache (.add user id post)) => some (Post.cacheKey user id, post)
    | _ => none

end Definitions

/-- The world in which the store in memory is empty, and so is the cache in memory. -/
def World.fresh (capacity : Nat) : World Memory Lru Snapshot := ⟨({}, { capacity }), []⟩

/-- The world in which calls have shared the store and the cache in memory for some turns. -/
abbrev World.shared (capacity : Nat) (history : List Turn) : World Memory Lru Snapshot :=
  (World.fresh capacity).after Memory.store Lru.cache history

/-- Whether what was last added under a key was late: the store did not hold it any more. -/
def World.late (capacity : Nat) (key : String) : List Turn → Bool
  | [] => false
  | turn :: earlier =>
    match (shared capacity earlier).addition? turn with
    | some (added, post) =>
      if added = key then !(shared capacity earlier).medium.1.holds post
      else late capacity key earlier
    | none => late capacity key earlier

/-! ## What the cache has to catch up with -/

/-- A session that has just changed what the store holds is about to change the cache there. -/
theorem Stage.pending_of_change {made : String → Post → Prop}
    {found : String → String → Post → Prop} {session : Session Snapshot}
    (stage : Stage made found session) {memory : Memory} (filed : memory.Filed) (lru : Lru)
    {u i : String}
    (changed : (session.step Memory.store Lru.cache (memory, lru)).2.1.find? u i ≠
      memory.find? u i) :
    (session.step Memory.store Lru.cache (memory, lru)).1.pendingKey? =
      some (Post.cacheKey u i) := by
  have faithful := Memory.healthy.faithful
  cases stage with
  | begun call =>
    cases call with
    | create user data fresh =>
      -- the new post is filed under the identifier under which it is added next
      rw [perform_create] at changed ⊢
      have elsewhere := (faithful.create_ok user data fresh memory _ filed rfl).2.2 u i
      by_cases here : u = user ∧ i = fresh.id
      · obtain ⟨rfl, rfl⟩ := here
        rfl
      · exact absurd (elsewhere here) changed
    | read user id =>
      rw [perform_read] at changed
      exact absurd rfl changed
    | readAll user => exact absurd rfl changed
    | update user id data clock =>
      rw [perform_update] at changed ⊢
      simp only [Session.step, serve_store_pair] at changed ⊢
      cases result : (Memory.store.serve (.update user id data clock) memory).1 with
      | error e =>
        -- a change that fails is followed by no removal, but changes nothing either
        have kept := faithful.update_error user id data clock memory e filed result
        exact absurd (congrFun (congrFun kept u) i) changed
      | ok post =>
        by_cases here : u = user ∧ i = id
        · obtain ⟨rfl, rfl⟩ := here
          rfl
        · exact absurd (faithful.update user id data clock memory u i filed here) changed
    | delete user id =>
      by_cases here : u = user ∧ i = id
      · obtain ⟨rfl, rfl⟩ := here
        rfl
      · exact absurd (faithful.delete user id memory u i filed here) changed
  | addingNew h => exact absurd rfl changed
  | @missed user id =>
    rw [readThrough_eq] at changed
    have kept := faithful.held_read user id memory filed
    exact absurd (congrFun (congrFun kept u) i) changed
  | addingFound h => exact absurd rfl changed
  | changed => exact absurd rfl changed
  | deleted => exact absurd rfl changed
  | answered h => exact absurd rfl changed

/-- Replacing one session keeps the others. -/
theorem mem_set_of_ne {α : Type} {sessions : List α} {index : Nat} {session other : α} (new : α)
    (here : sessions[index]? = some session) (member : other ∈ sessions) (ne : other ≠ session) :
    other ∈ sessions.set index new := by
  obtain ⟨place, found⟩ := List.mem_iff_getElem?.1 member
  have elsewhere : index ≠ place := by
    rintro rfl
    exact ne (Option.some.inj (found.symm.trans here))
  exact List.mem_iff_getElem?.2 ⟨place, by rwa [List.getElem?_set_ne elsewhere]⟩

/-! ## What the entries are -/

/-- Whether some session is about to add or remove under a key. -/
def World.Pending (world : World Memory Lru Snapshot) (key : String) : Prop :=
  ∃ session ∈ world.sessions, session.pendingKey? = some key

/-- After a history, each entry is under the key of its post; and unless some session is about to
change it, the store holds the post just when it was not added late. -/
structure World.Tracked (capacity : Nat) (history : List Turn) : Prop where
  filed : (shared capacity history).medium.1.Filed
  sessions : ∀ session ∈ (shared capacity history).sessions,
    Stage (fun user post => post.user = user) (fun user id post => owns user id post = true) session
  entries : ∀ key post, (shared capacity history).medium.2.entries.get? key = some post →
    key = post.key ∧ ((shared capacity history).Pending key ∨
      (shared capacity history).medium.1.holds post = !late capacity key history)

section Turns

variable {capacity : Nat} {history : List Turn}

/-- A turn that adds nothing makes nothing late. -/
theorem World.late_of_none {turn : Turn} (key : String)
    (adds : (shared capacity history).addition? turn = none) :
    late capacity key (turn :: history) = late capacity key history := by
  rw [late, adds]

/-- Only an addition under a key makes what is there late, or in time. -/
theorem World.late_of_some {turn : Turn} {key added : String} {post : Post}
    (adds : (shared capacity history).addition? turn = some (added, post)) :
    late capacity key (turn :: history) =
      if added = key then !(shared capacity history).medium.1.holds post
      else late capacity key history := by
  rw [late, adds]

namespace World.Tracked

/-- A call that begins changes no entry. -/
theorem begin (tracked : Tracked capacity history) (call : Call) :
    Tracked capacity (.begin call :: history) := by
  refine ⟨tracked.filed, ?_, ?_⟩
  · intro session member
    rcases List.mem_append.1 member with old | new
    · exact tracked.sessions session old
    · rw [List.mem_singleton.1 new]
      exact .begun call
  · intro key post found
    rw [late_of_none key rfl]
    obtain ⟨own, ⟨session, member, pending⟩ | current⟩ := tracked.entries key post found
    · exact ⟨own, .inl ⟨session, List.mem_append_left _ member, pending⟩⟩
    · exact ⟨own, .inr current⟩

end World.Tracked

/-! ## Steps -/

variable {index : Nat} {session : Session Snapshot}

theorem World.shared_step (here : (shared capacity history).sessions[index]? = some session) :
    shared capacity (.step index :: history) =
      ⟨(session.step Memory.store Lru.cache (shared capacity history).medium).2,
        (shared capacity history).sessions.set index
          (session.step Memory.store Lru.cache (shared capacity history).medium).1⟩ := by
  rw [shared, World.after, turn_step_some here]

/-- A question to the cache leaves the store as it is. -/
theorem World.medium_of_cache (here : (shared capacity history).sessions[index]? = some session)
    {call : CacheCall} (asks : session.question? = some (.cache call)) :
    (shared capacity (.step index :: history)).medium =
      ((shared capacity history).medium.1,
        (Lru.cache.serve call (shared capacity history).medium.2).2) := by
  rw [shared_step here, Session.step_medium asks]
  rfl

theorem World.addition?_step (here : (shared capacity history).sessions[index]? = some session) :
    (shared capacity history).addition? (.step index) =
      match session.question? with
      | some (.cache (.add user id post)) => some (Post.cacheKey user id, post)
      | _ => none := by
  simp only [addition?, here, Option.bind_some]

theorem World.addition?_of_calm (here : (shared capacity history).sessions[index]? = some session)
    (calm : session.pendingKey? = none) :
    (shared capacity history).addition? (.step index) = none := by
  rw [addition?_step here]
  split
  · rename_i asks
    rw [Session.pendingKey?, asks] at calm
    cases calm
  · rfl

/-- Lookups in the cache give the same after the step of a session that was not about to change
it. -/
theorem Session.get?_of_calm (calm : session.pendingKey? = none) {medium : Memory × Lru}
    (key : String) :
    (session.step Memory.store Lru.cache medium).2.2.entries.get? key =
      medium.2.entries.get? key := by
  cases asks : session.question? with
  | none => rw [Session.step_of_ended asks]
  | some question =>
    rw [Session.step_medium asks]
    rw [Session.pendingKey?, asks] at calm
    cases question with
    | store call => rfl
    | cache call =>
      cases call with
      | get user id => exact Lru.get?_get _ _ key
      | add user id post => cases calm
      | remove user id => cases calm

/-- A session that is about to change the cache under a key waits through the steps of others. -/
theorem World.Pending.step (here : (shared capacity history).sessions[index]? = some session)
    {key : String} (other : session.pendingKey? ≠ some key)
    (pending : (shared capacity history).Pending key) :
    (shared capacity (.step index :: history)).Pending key := by
  obtain ⟨waiting, member, asks⟩ := pending
  have ne : waiting ≠ session := by
    rintro rfl
    exact other asks
  rw [shared_step here]
  exact ⟨waiting, mem_set_of_ne _ here member ne, asks⟩

namespace World.Tracked

/-- A step of a session that is not about to change the cache. -/
theorem entries_of_calm (tracked : Tracked capacity history)
    (here : (shared capacity history).sessions[index]? = some session)
    (calm : session.pendingKey? = none) {key : String} {post : Post}
    (found : (shared capacity (.step index :: history)).medium.2.entries.get? key = some post) :
    key = post.key ∧ ((shared capacity (.step index :: history)).Pending key ∨
      (shared capacity (.step index :: history)).medium.1.holds post =
        !late capacity key (.step index :: history)) := by
  have member := List.mem_of_getElem? here
  rw [late_of_none key (addition?_of_calm here calm)]
  have before : (shared capacity history).medium.2.entries.get? key = some post := by
    rw [← found, shared_step here]
    exact (Session.get?_of_calm calm key).symm
  obtain ⟨own, pending | current⟩ := tracked.entries key post before
  · exact ⟨own, .inl (pending.step here (by rw [calm]; nofun))⟩
  · refine ⟨own, ?_⟩
    by_cases same : (shared capacity (.step index :: history)).medium.1.find? post.user post.id =
        (shared capacity history).medium.1.find? post.user post.id
    · right
      rw [← current, Memory.holds, Memory.holds, same]
    · -- the store holds something else now, so the session is about to change the cache here
      left
      rw [shared_step here] at same ⊢
      have asks := (tracked.sessions session member).pending_of_change tracked.filed
        (shared capacity history).medium.2 same
      rw [own]
      exact ⟨_, List.mem_set (List.getElem?_eq_some_iff.1 here).1 _, asks⟩

/-- A post is added under its own key. -/
theorem key_of_add (tracked : Tracked capacity history)
    (member : session ∈ (shared capacity history).sessions) {user id : String} {post : Post}
    (asks : session.question? = some (.cache (.add user id post))) :
    Post.cacheKey user id = post.key := by
  rcases (tracked.sessions session member).of_add asks with ⟨rfl, rfl⟩ | own
  · rfl
  · obtain ⟨rfl, rfl⟩ := owns_iff.1 own
    rfl

/-- A step that adds an entry. -/
theorem entries_of_add (tracked : Tracked capacity history)
    (here : (shared capacity history).sessions[index]? = some session) {user id : String}
    {added : Post} (asks : session.question? = some (.cache (.add user id added))) {key : String}
    {post : Post}
    (found : (shared capacity (.step index :: history)).medium.2.entries.get? key = some post) :
    key = post.key ∧ ((shared capacity (.step index :: history)).Pending key ∨
      (shared capacity (.step index :: history)).medium.1.holds post =
        !late capacity key (.step index :: history)) := by
  have adds := addition?_step here
  rw [asks] at adds
  rw [late_of_some adds]
  simp only [medium_of_cache here asks, Lru.cache, Lru.serve] at found ⊢
  by_cases same : Post.cacheKey user id = key
  · subst same
    rw [Lru.get?_add_self] at found
    cases found
    rw [if_pos rfl, Bool.not_not]
    exact ⟨tracked.key_of_add (List.mem_of_getElem? here) asks, .inr rfl⟩
  · -- entries under other keys may be dropped but are not altered
    rw [if_neg same]
    obtain ⟨own, pending | current⟩ := tracked.entries key post (Lru.get?_of_add same found)
    · refine ⟨own, .inl (pending.step here ?_)⟩
      simpa only [Session.pendingKey?, asks, ne_eq, Option.some.injEq] using same
    · exact ⟨own, .inr current⟩

/-- A step that removes an entry. -/
theorem entries_of_remove (tracked : Tracked capacity history)
    (here : (shared capacity history).sessions[index]? = some session) {user id : String}
    (asks : session.question? = some (.cache (.remove user id))) {key : String} {post : Post}
    (found : (shared capacity (.step index :: history)).medium.2.entries.get? key = some post) :
    key = post.key ∧ ((shared capacity (.step index :: history)).Pending key ∨
      (shared capacity (.step index :: history)).medium.1.holds post =
        !late capacity key (.step index :: history)) := by
  have adds := addition?_step here
  rw [asks] at adds
  rw [late_of_none key adds]
  simp only [medium_of_cache here asks, Lru.cache, Lru.serve] at found ⊢
  rw [Lru.get?_remove] at found
  by_cases same : Post.cacheKey user id = key
  · rw [if_pos same] at found
    cases found
  · rw [if_neg same] at found
    obtain ⟨own, pending | current⟩ := tracked.entries key post found
    · refine ⟨own, .inl (pending.step here ?_)⟩
      simpa only [Session.pendingKey?, asks, ne_eq, Option.some.injEq] using same
    · exact ⟨own, .inr current⟩

/-- **One more turn keeps track of what is late.** -/
theorem turn (tracked : Tracked capacity history) (turn : Turn) :
    Tracked capacity (turn :: history) := by
  cases turn with
  | begin call => exact tracked.begin call
  | step index =>
    cases here : (shared capacity history).sessions[index]? with
    | none =>
      have same : shared capacity (.step index :: history) = shared capacity history :=
        turn_step_none here
      have nothing : (shared capacity history).addition? (.step index) = none := by
        simp only [addition?, here, Option.bind_none]
      refine ⟨by rw [same]; exact tracked.filed, by rw [same]; exact tracked.sessions, ?_⟩
      intro key post
      rw [same, late_of_none key nothing]
      exact tracked.entries key post
    | some session =>
      refine ⟨turn_sound Memory.healthy.keeps_sound tracked.filed _, ?_, ?_⟩
      · refine stages_turn tracked.sessions (fun _ _ h => h) (fun _ _ _ h => h) ?_
        intro session _ _ question _
        unfold Warranted
        split
        · rename_i answer
          exact (Memory.healthy.faithful.create_ok _ _ _ _ _ tracked.filed answer).1
        · rename_i answer
          exact (Memory.healthy.read_own tracked.filed answer).2
        · exact fun own => own
        · trivial
      · -- only additions and removals alter the entries; all other steps are calm
        intro key post found
        cases asks : session.question? with
        | none => exact tracked.entries_of_calm here (by rw [Session.pendingKey?, asks]) found
        | some question =>
          cases question with
          | store call =>
            exact tracked.entries_of_calm here (by rw [Session.pendingKey?, asks]) found
          | cache call =>
            cases call with
            | get user id =>
              exact tracked.entries_of_calm here (by rw [Session.pendingKey?, asks]) found
            | add user id added => exact tracked.entries_of_add here asks found
            | remove user id => exact tracked.entries_of_remove here asks found

end World.Tracked

end Turns

/-- However the turns fall, track is kept of what is late. -/
theorem World.tracked (capacity : Nat) (history : List Turn) : Tracked capacity history := by
  induction history with
  | nil =>
    refine ⟨Memory.filed_empty, ?_, ?_⟩
    · intro session member
      cases member
    · intro key post found
      cases found
  | cons turn earlier ih => exact ih.turn turn

/-! ## Why copies come late -/

/-- What holds early in a history and not at its end stops holding with one of the turns. -/
theorem exists_turning {α : Type} {P : List α → Prop} {history earlier : List α}
    (suffix : earlier <:+ history) (early : P earlier) (late : ¬ P history) :
    ∃ turn before, (turn :: before) <:+ history ∧ P before ∧ ¬ P (turn :: before) := by
  induction history with
  | nil =>
    rw [List.suffix_nil.1 suffix] at early
    exact absurd early late
  | cons turn before ih =>
    by_cases here : P before
    · exact ⟨turn, before, List.suffix_rfl, here, late⟩
    · rcases List.suffix_cons_iff.1 suffix with rfl | within
      · exact absurd early late
      · obtain ⟨turn', before', later, holds, stops⟩ := ih within here
        exact ⟨turn', before', later.trans (List.suffix_cons turn before), holds, stops⟩

/-- An addition is what some session has asked for. -/
theorem World.exists_of_addition? {σ τ κ : Type} {world : World σ τ κ} {turn : Turn} {key : String}
    {post : Post} (adds : world.addition? turn = some (key, post)) :
    ∃ session ∈ world.sessions, ∃ user id,
      session.question? = some (.cache (.add user id post)) ∧ key = Post.cacheKey user id := by
  cases turn with
  | begin call => cases adds
  | step index =>
    rw [addition?] at adds
    split at adds
    · rename_i user id added asks
      cases adds
      obtain ⟨session, here, question⟩ := Option.bind_eq_some_iff.1 asks
      exact ⟨session, List.mem_of_getElem? here, user, id, question, rfl⟩
    · cases adds

/-- **A copy comes late only when its post is changed or removed before it comes**: the store has
held the post, and ceased to with one of the turns. -/
theorem World.taken_of_late {capacity : Nat} {key : String} {history : List Turn}
    (late : late capacity key history = true) :
    ∃ turn before post, (turn :: before) <:+ history ∧ post.key = key ∧
      (shared capacity before).medium.1.holds post = true ∧
      ¬ (shared capacity (turn :: before)).medium.1.holds post = true := by
  induction history with
  | nil => cases late
  | cons turn history ih =>
    have onwards : ∀ {later}, later <:+ history → later <:+ turn :: history :=
      fun within => within.trans (List.suffix_cons turn history)
    cases adds : (shared capacity history).addition? turn with
    | none =>
      rw [late_of_none key adds] at late
      obtain ⟨turn', before, post, within, rest⟩ := ih late
      exact ⟨turn', before, post, onwards within, rest⟩
    | some addition =>
      obtain ⟨added, post⟩ := addition
      rw [late_of_some adds] at late
      by_cases same : added = key
      · rw [if_pos same, Bool.not_eq_true'] at late
        obtain ⟨session, member, user, id, asks, named⟩ := exists_of_addition? adds
        have sourced : (fresh capacity).Sourced Memory.store Lru.cache Memory.find? Memory.Filed
            Lru.peek history :=
          sourced_after Memory.healthy.honest Lru.forgetful Memory.filed_empty rfl
            (fun _ _ => rfl) history
        -- the session has the post from the store, which held it then and does not hold it now
        have hasHeld :
            (fresh capacity).HasHeld Memory.store Lru.cache Memory.find? history post := by
          rcases (sourced.sessions session member).of_add asks with ⟨made, _⟩ | ⟨_, found⟩
          · exact made
          · exact found
        have own := named.trans ((tracked capacity history).key_of_add member asks)
        obtain ⟨earlier, suffix, held⟩ := hasHeld
        obtain ⟨turn', before, within, holds, stops⟩ := exists_turning
          (P := fun history => (shared capacity history).medium.1.holds post = true) suffix
          (decide_eq_true held) (by rw [late]; exact Bool.false_ne_true)
        exact ⟨turn', before, post, onwards within, own.symm.trans same, holds, stops⟩
      · rw [if_neg same] at late
        obtain ⟨turn', before, post, within, rest⟩ := ih late
        exact ⟨turn', before, post, onwards within, rest⟩

/-! ## Quiet worlds -/

theorem World.not_pending_of_quiet {world : World Memory Lru Snapshot} (quiet : world.quiet = true)
    (key : String) : ¬ world.Pending key := by
  rintro ⟨⟨call, answer | ⟨question, next⟩⟩, member, asks⟩
  · cases asks
  · have ended := List.all_eq_true.1 quiet _ member
    cases ended

/-- In a quiet world the store holds the post of an entry just when the entry did not come late. -/
theorem World.entry_of_quiet {capacity : Nat} {history : List Turn}
    (quiet : (shared capacity history).quiet = true) {key : String} {post : Post}
    (found : (shared capacity history).medium.2.entries.get? key = some post) :
    (shared capacity history).medium.1.find? post.user post.id = some post ↔
      late capacity key history = false := by
  obtain ⟨_, pending | current⟩ := (tracked capacity history).entries key post found
  · exact absurd pending (not_pending_of_quiet quiet key)
  · rw [Memory.holds] at current
    rw [← Bool.not_eq_true', ← current, decide_eq_true_iff]

/-- **When no call is being handled, an entry is what the store holds just when it did not come
late,** and a reader who is alone gets what the store gives just when there is no entry of its own
that came late.  What comes late was held by the store, which ceased to hold it with one of the
turns before. -/
theorem stale_iff_late (capacity : Nat) (history : List Turn)
    (quiet : (World.shared capacity history).quiet = true) :
    (∀ key post, (World.shared capacity history).medium.2.entries.get? key = some post →
      ((World.shared capacity history).medium.1.find? post.user post.id = some post ↔
        World.late capacity key history = false)) ∧
    (∀ user id, ((Memory.store.cachedBy Lru.cache).serve (.read user id)
          (World.shared capacity history).medium).1 =
        (Memory.store.serve (.read user id) (World.shared capacity history).medium.1).1 ↔
      ¬ ∃ post, (World.shared capacity history).medium.2.peek user id = some post ∧
        owns user id post = true ∧
        World.late capacity (Post.cacheKey user id) history = true) ∧
    (∀ key, World.late capacity key history = true →
      ∃ turn before post, (turn :: before) <:+ history ∧ post.key = key ∧
        (World.shared capacity before).medium.1.holds post = true ∧
        ¬ (World.shared capacity (turn :: before)).medium.1.holds post = true) := by
  refine ⟨fun key post found => World.entry_of_quiet quiet found, fun user id => ?_,
    fun key late => World.taken_of_late late⟩
  have given : (Lru.cache.serve (.get user id) (World.shared capacity history).medium.2).1 =
      (World.shared capacity history).medium.2.peek user id := Lru.get_answer _ _
  rw [serve_read_agrees_iff Memory.healthy.faithful (World.tracked capacity history).filed given]
  constructor
  · -- an entry that its owner finds is under the owner's key, where it can be told to be late
    rintro current ⟨post, found, own, late⟩
    have held := current post found own
    obtain ⟨rfl, rfl⟩ := owns_iff.1 own
    rw [(World.entry_of_quiet quiet found).1 held] at late
    cases late
  · intro none post found own
    obtain ⟨rfl, rfl⟩ := owns_iff.1 own
    refine (World.entry_of_quiet quiet found).2 ?_
    cases late : World.late capacity (Post.cacheKey post.user post.id) history with
    | false => rfl
    | true => exact absurd ⟨post, found, own, late⟩ none

/-- A reader that has looked into the store before a removal, and fills the cache after it. -/
def World.overtaken : List Turn :=
  [.step 1, .step 2, .step 2, .begin (.delete "u" "p"), .step 0, .step 1, .step 1,
    .begin (.read "u" "p"), .step 0, .begin (.create "u" "text" ⟨"p", default⟩)]

/-- After the removal has come to its end, and all else has, a reader still gets the post. -/
theorem stale_iff_late_overtaken :
    let world := World.shared 4 World.overtaken
    World.late 4 "u#p" World.overtaken = true ∧ world.quiet = true ∧
      ¬ ((Memory.store.cachedBy Lru.cache).serve (.read "u" "p") world.medium).1 =
        (Memory.store.serve (.read "u" "p") world.medium.1).1 := by
  intro world
  have late : World.late 4 "u#p" World.overtaken = true := by decide
  have quiet : world.quiet = true := by decide
  refine ⟨late, quiet, ?_⟩
  intro same
  refine ((stale_iff_late 4 World.overtaken quiet).2.1 "u" "p").1 same ?_
  exact ⟨Post.make "u" "text" ⟨"p", default⟩, rfl, rfl, late⟩

/-- The store need not hold what is in the cache once no call is being handled. -/
theorem quiet_not_current : ¬ ∀ (capacity : Nat) (history : List Turn),
    (World.shared capacity history).quiet = true → ∀ key post,
      (World.shared capacity history).medium.2.entries.get? key = some post →
      (World.shared capacity history).medium.1.find? post.user post.id = some post := by
  intro current
  have held := current 4 World.overtaken (by decide) "u#p" (Post.make "u" "text" ⟨"p", default⟩) rfl
  have gone : (World.shared 4 World.overtaken).medium.1.find? "u" "p" = none := rfl
  exact nomatch held.symm.trans gone

end Coordinator

end PostStore
