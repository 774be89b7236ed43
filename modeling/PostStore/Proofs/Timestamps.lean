import PostStore.Proofs.CachedFollowing
import PostStore.Proofs.Lmdb.Agreement
import PostStore.Proofs.LostInvalidation
import PostStore.Proofs.Redis.Agreement
/-!
# Times that never go back

Whatever the clock reads, and however often it reads the same or jumps back: the times of every post
that a store gives are whole microseconds, the change of a post is not before its creation, its
creation is told alike every time, and a change is told as later than everything told before.  What
the argument rests on is a catalogue whose posts are at least as new as all that was ever given.
-/

namespace PostStore

/-! ## The law -/

/-- The posts that a call returns. -/
def Call.returned : (call : Call) → call.Outcome → List Post
  | .create .., outcome => outcome.toOption.toList
  | .read .., outcome => outcome.toOption.toList
  | .readAll _, outcome => outcome.toOption.getD []
  | .update .., outcome => outcome.toOption.toList
  | .delete .., _ => []

/-- The post that a call has changed. -/
def Call.changed? : (call : Call) → call.Outcome → Option Post
  | .update .., outcome => outcome.toOption
  | .create .., _ | .read .., _ | .readAll _, _ | .delete .., _ => none

/-- The identifier that a call uses for a new post. -/
def Call.freshId? : Call → Option String
  | .create _ _ fresh => some fresh.id
  | .read .. | .readAll _ | .update .. | .delete .. => none

/-- When identifiers for new posts differ, and none is used already, that of the first call is not
used, and those of the others differ and are not used after it. -/
theorem Call.freshIds_cons {call : Call} {calls : List Call} {used : List String}
    (once : ((call :: calls).filterMap Call.freshId?).Nodup)
    (fresh : ∀ id ∈ (call :: calls).filterMap Call.freshId?, id ∉ used) :
    (∀ id ∈ call.freshId?, id ∉ used) ∧ (calls.filterMap Call.freshId?).Nodup ∧
      ∀ id ∈ calls.filterMap Call.freshId?, id ∉ call.freshId?.toList ++ used := by
  have split : (call :: calls).filterMap Call.freshId? =
      call.freshId?.toList ++ calls.filterMap Call.freshId? := by
    cases h : call.freshId? <;> simp [h]
  rw [split] at once fresh
  obtain ⟨-, once', apart⟩ := List.nodup_append.1 once
  have first : ∀ id ∈ call.freshId?, id ∉ used := fun id member =>
    fresh id (List.mem_append_left _ (Option.mem_toList.2 member))
  refine ⟨first, once', fun id member again => ?_⟩
  rcases List.mem_append.1 again with here | before
  · exact apart id here id member rfl
  · exact fresh id (List.mem_append_right _ member) before

namespace Post

/-- Whether two posts have the same user and identifier. -/
def Same (post post' : Post) : Prop := post.user = post'.user ∧ post.id = post'.id

/-- The times of a post are whole microseconds, and its last change is not before its creation. -/
structure Timely (post : Post) : Prop where
  created : post.createdAt.WholeMicros
  updated : post.updatedAt.WholeMicros
  ordered : post.createdAt ≤ post.updatedAt

end Post

/-- The law of times, over the outcomes of a run. -/
structure KeepsTime (outcomes : List (Σ call : Call, call.Outcome)) : Prop where
  timely : ∀ outcome ∈ outcomes, ∀ post ∈ outcome.1.returned outcome.2, post.Timely
  created : ∀ outcome ∈ outcomes, ∀ outcome' ∈ outcomes, ∀ post ∈ outcome.1.returned outcome.2,
    ∀ post' ∈ outcome'.1.returned outcome'.2, post.Same post' → post.createdAt = post'.createdAt
  later : outcomes.Pairwise fun before after => ∀ post ∈ before.1.returned before.2,
    ∀ changed ∈ after.1.changed? after.2, post.Same changed → post.updatedAt < changed.updatedAt

/-! ## Instants -/

namespace Instant

theorem le_refl (t : Instant) : t ≤ t := le_def.2 (.inr ⟨rfl, Nat.le_refl _⟩)

theorem le_of_lt {a b : Instant} (h : a < b) : a ≤ b := by
  rw [lt_def] at h
  rw [le_def]
  omega

theorem lt_of_le_of_lt {a b c : Instant} (h : a ≤ b) (h' : b < c) : a < c := by
  rw [le_def] at h
  rw [lt_def] at *
  omega

/-- A microsecond later is a whole number of microseconds again. -/
theorem WholeMicros.addMicro? {t later : Instant} (whole : t.WholeMicros)
    (h : t.addMicro? = some later) : later.WholeMicros := by
  simp only [Instant.addMicro?] at h
  unfold WholeMicros at *
  split at h <;> split at h <;> have parts := ofParts?_eq_some h <;> omega

/-- The time of a change is a whole number of microseconds, whatever the clock reads. -/
theorem WholeMicros.next? {previous clock t : Instant} (whole : previous.WholeMicros)
    (h : Instant.next? previous clock = some t) : t.WholeMicros := by
  obtain ⟨floor, step, same⟩ := Option.map_eq_some_iff.1 h
  split at same
  · rw [← same]
    exact wholeMicros_truncateToMicros clock
  · rw [← same]
    exact whole.addMicro? step

end Instant

namespace Post

/-- A new post is timely. -/
theorem timely_make (user data : String) (fresh : Fresh) : (make user data fresh).Timely where
  created := Instant.wholeMicros_truncateToMicros _
  updated := Instant.wholeMicros_truncateToMicros _
  ordered := Instant.le_refl _

/-- A change keeps the time of creation and is later than what it changes. -/
theorem lt_of_withData? {post changed : Post} {data : String} {clock : Instant}
    (h : post.withData? data clock = some changed) : post.updatedAt < changed.updatedAt := by
  obtain ⟨t, next, rfl⟩ := Option.map_eq_some_iff.1 h
  exact Instant.lt_of_next? next

theorem Timely.withData? {post changed : Post} (timely : post.Timely) {data : String}
    {clock : Instant} (h : post.withData? data clock = some changed) : changed.Timely := by
  have later := lt_of_withData? h
  obtain ⟨t, next, rfl⟩ := Option.map_eq_some_iff.1 h
  constructor
  · exact timely.created
  · exact timely.updated.next? next
  · have ordered := timely.ordered
    exact Instant.le_of_lt (Instant.lt_of_le_of_lt ordered later)

end Post

/-! ## What was given and what is held -/

/-- What a call returns is held after it. -/
theorem Catalogue.Gives.held {held : Catalogue} {call : Call} {outcome : call.Outcome}
    (given : held.Gives call outcome) (own : held.Own) {post : Post}
    (returned : post ∈ call.returned outcome) : held.after call post.user post.id = some post := by
  cases call with
  | create user data fresh =>
    obtain rfl : outcome = .ok (Post.make user data fresh) := given
    obtain rfl := List.mem_singleton.1 returned
    exact Catalogue.file_self held _
  | read user id =>
    obtain rfl : outcome = held.lookup user id := given
    cases found : held.lookup user id with
    | error e =>
      rw [found] at returned
      cases returned
    | ok post' =>
      rw [found] at returned
      obtain rfl := List.mem_singleton.1 returned
      have current := Catalogue.lookup_eq_ok.1 found
      obtain ⟨rfl, rfl⟩ := own user id post current
      exact current
  | readAll user =>
    obtain ⟨posts, rfl, -, all⟩ := given
    have current := (all post).1 returned
    obtain ⟨hu, -⟩ := own user post.id post current
    rw [hu]
    exact current
  | update user id data clock =>
    obtain rfl : outcome = held.change user id data clock := given
    show held.afterChange (held.change user id data clock) post.user post.id = some post
    cases found : held.change user id data clock with
    | error e =>
      rw [found] at returned
      cases returned
    | ok changed =>
      rw [found] at returned
      obtain rfl := List.mem_singleton.1 returned
      exact Catalogue.file_self held _
  | delete user id => cases returned

/-- The outcomes so far keep the law, every post held is timely, and is as new as any post that was
given under its user and identifier; identifiers of what is held or was given are used up. -/
structure Dated (held : Catalogue) (used : List String)
    (past : List (Σ call : Call, call.Outcome)) : Prop where
  law : KeepsTime past
  own : held.Own
  timely : ∀ user id post, held user id = some post → post.Timely
  used_held : ∀ user id post, held user id = some post → id ∈ used
  used_given : ∀ outcome ∈ past, ∀ post ∈ outcome.1.returned outcome.2, post.id ∈ used
  newest : ∀ outcome ∈ past, ∀ post ∈ outcome.1.returned outcome.2, ∀ current,
    held post.user post.id = some current →
      post.createdAt = current.createdAt ∧ post.updatedAt ≤ current.updatedAt

section Steps

variable {held : Catalogue} {used : List String} {past : List (Σ call : Call, call.Outcome)}

/-- Filing a post that is timely, and as new as all that was given of it, keeps dates. -/
theorem Dated.file (dated : Dated held used past) {post : Post} {used' : List String}
    (more : ∀ id ∈ used, id ∈ used') (timely : post.Timely) (filed : post.id ∈ used')
    (newest : ∀ outcome ∈ past, ∀ given ∈ outcome.1.returned outcome.2, given.Same post →
      given.createdAt = post.createdAt ∧ given.updatedAt ≤ post.updatedAt) :
    Dated (held.file post) used' past := by
  constructor
  · exact dated.law
  · exact dated.own.file post
  · intro user id current found
    by_cases here : user = post.user ∧ id = post.id
    · obtain ⟨rfl, rfl⟩ := here
      rw [Catalogue.file_self] at found
      exact Option.some.inj found ▸ timely
    · rw [Catalogue.file_ne here] at found
      exact dated.timely user id current found
  · intro user id current found
    by_cases here : user = post.user ∧ id = post.id
    · exact here.2 ▸ filed
    · rw [Catalogue.file_ne here] at found
      exact more id (dated.used_held user id current found)
  · exact fun outcome member given returned =>
      more _ (dated.used_given outcome member given returned)
  · intro outcome member given returned current found
    by_cases here : given.user = post.user ∧ given.id = post.id
    · rw [here.1, here.2, Catalogue.file_self] at found
      exact Option.some.inj found ▸ newest outcome member given returned here
    · rw [Catalogue.file_ne here] at found
      exact dated.newest outcome member given returned current found

theorem Dated.drop (dated : Dated held used past) (user id : String) :
    Dated (held.drop user id) used past := by
  have before : ∀ u i post, held.drop user id u i = some post → held u i = some post := by
    intro u i post found
    by_cases here : u = user ∧ i = id
    · obtain ⟨rfl, rfl⟩ := here
      rw [Catalogue.drop_self] at found
      cases found
    · rwa [Catalogue.drop_ne here] at found
  constructor
  · exact dated.law
  · exact dated.own.drop user id
  · exact fun u i post found => dated.timely u i post (before u i post found)
  · exact fun u i post found => dated.used_held u i post (before u i post found)
  · exact dated.used_given
  · exact fun outcome member given returned current found =>
      dated.newest outcome member given returned current (before _ _ current found)

/-- A change is later than everything that was given of the post. -/
theorem Dated.lt_change (dated : Dated held used past) {user id data : String}
    {clock : ClockReading} {changed : Post} (h : held.change user id data clock = .ok changed) :
    ∀ outcome ∈ past, ∀ post ∈ outcome.1.returned outcome.2, post.Same changed →
      post.createdAt = changed.createdAt ∧ post.updatedAt < changed.updatedAt := by
  intro outcome member post returned same
  obtain ⟨hu, hi⟩ := dated.own.change h
  obtain ⟨current, found, later⟩ := Catalogue.change_eq_ok h
  rw [← hu, ← hi, ← same.1, ← same.2] at found
  obtain ⟨created, updated⟩ := dated.newest outcome member post returned current found
  constructor
  · rw [created, (Post.withData?_identity later).2.2.2]
  · exact Instant.lt_of_le_of_lt updated (Post.lt_of_withData? later)

/-- The catalogue after a call is dated, as long as the call uses no identifier again. -/
theorem Dated.after (dated : Dated held used past) (call : Call)
    (fresh : ∀ id ∈ call.freshId?, id ∉ used) :
    Dated (held.after call) (call.freshId?.toList ++ used) past := by
  cases call with
  | create user data fresh' =>
    refine dated.file (fun id member => List.mem_cons_of_mem _ member)
      (Post.timely_make user data fresh') List.mem_cons_self ?_
    intro outcome member given returned same
    -- the identifier is not that of anything given before
    have again : given.id = fresh'.id := same.2
    exact absurd (dated.used_given outcome member given returned) (fresh given.id (again ▸ rfl))
  | read user id => exact dated
  | readAll user => exact dated
  | update user id data clock =>
    show Dated (held.afterChange (held.change user id data clock)) used past
    cases h : held.change user id data clock with
    | error e => exact dated
    | ok changed =>
      obtain ⟨current, found, later⟩ := Catalogue.change_eq_ok h
      obtain ⟨-, hi⟩ := dated.own.change h
      refine dated.file (fun _ member => member)
        ((dated.timely user id current found).withData? later) ?_ ?_
      · exact hi ▸ dated.used_held user id current found
      · intro outcome member given returned same
        obtain ⟨created, updated⟩ := dated.lt_change h outcome member given returned same
        exact ⟨created, Instant.le_of_lt updated⟩
  | delete user id => exact dated.drop user id

/-- What is held may be given: when everything returned is held, and what was changed is later than
what was given before, the outcome is one more. -/
theorem Dated.give (dated : Dated held used past) {outcome : Σ call : Call, call.Outcome}
    (holds : ∀ post ∈ outcome.1.returned outcome.2, held post.user post.id = some post)
    (later : ∀ before ∈ past, ∀ post ∈ before.1.returned before.2,
      ∀ changed ∈ outcome.1.changed? outcome.2, post.Same changed →
        post.updatedAt < changed.updatedAt) :
    Dated held used (past ++ [outcome]) := by
  have newest : ∀ given ∈ past ++ [outcome], ∀ post ∈ given.1.returned given.2, ∀ current,
      held post.user post.id = some current →
        post.createdAt = current.createdAt ∧ post.updatedAt ≤ current.updatedAt := by
    intro given member post returned current found
    rcases List.mem_append.1 member with before | here
    · exact dated.newest given before post returned current found
    · obtain rfl := List.mem_singleton.1 here
      obtain rfl := Option.some.inj ((holds post returned).symm.trans found)
      exact ⟨rfl, Instant.le_refl _⟩
  refine ⟨⟨?_, ?_, ?_⟩, dated.own, dated.timely, dated.used_held, ?_, newest⟩
  · intro given member post returned
    rcases List.mem_append.1 member with before | here
    · exact dated.law.timely given before post returned
    · obtain rfl := List.mem_singleton.1 here
      exact dated.timely _ _ post (holds post returned)
  · intro given member given' member' post returned post' returned' same
    rcases List.mem_append.1 member' with before' | here'
    · rcases List.mem_append.1 member with before | here
      · exact dated.law.created given before given' before' post returned post' returned' same
      · obtain rfl := List.mem_singleton.1 here
        have current := holds post returned
        rw [same.1, same.2] at current
        exact (dated.newest given' before' post' returned' post current).1.symm
    · obtain rfl := List.mem_singleton.1 here'
      have current := holds post' returned'
      rw [← same.1, ← same.2] at current
      exact (newest given member post returned post' current).1
  · refine List.pairwise_append.2 ⟨dated.law.later, List.pairwise_singleton _ _, ?_⟩
    intro before member given here
    obtain rfl := List.mem_singleton.1 here
    exact later before member
  · intro given member post returned
    rcases List.mem_append.1 member with before | here
    · exact dated.used_given given before post returned
    · obtain rfl := List.mem_singleton.1 here
      exact dated.used_held _ _ post (holds post returned)

/-- Whatever may come of a call is one more outcome. -/
theorem Dated.step (dated : Dated held used past) {call : Call} {outcome : call.Outcome}
    {next : Catalogue} (fresh : ∀ id ∈ call.freshId?, id ∉ used)
    (allowed : held.Allows call outcome next) :
    Dated next (call.freshId?.toList ++ used) (past ++ [⟨call, outcome⟩]) := by
  rcases allowed with ⟨given, rfl⟩ | ⟨⟨e, rfl⟩, rfl⟩
  · refine (dated.after call fresh).give (fun post => given.held dated.own) ?_
    intro before member post returned changed here same
    cases call with
    | update user id data clock =>
      obtain rfl : outcome = held.change user id data clock := given
      have changes := Lmdb.Entries.toOption_eq_some.1 here
      exact (dated.lt_change changes before member post returned same).2
    | create => cases here
    | read => cases here
    | readAll => cases here
    | delete => cases here
  · -- a call that has failed returns nothing
    have nothing : call.returned (.error e) = [] := by cases call <;> rfl
    have unchanged : call.changed? (.error e) = none := by cases call <;> rfl
    have kept : Dated next (call.freshId?.toList ++ used) past := by
      refine ⟨dated.law, dated.own, dated.timely, ?_, ?_, dated.newest⟩
      · exact fun user id post found =>
          List.mem_append_right _ (dated.used_held user id post found)
      · exact fun outcome member post returned =>
          List.mem_append_right _ (dated.used_given outcome member post returned)
    refine kept.give ?_ ?_
    · intro post returned
      rw [nothing] at returned
      cases returned
    · intro before member post returned changed here
      rw [unchanged] at here
      cases here

/-- Nothing has been given and nothing is held. -/
theorem dated_empty : Dated (fun _ _ => none) [] [] := by
  refine ⟨⟨?_, ?_, .nil⟩, Catalogue.own_empty, ?_, ?_, ?_, ?_⟩ <;> intros <;> contradiction

end Steps

/-! ## Runs -/

section Runs

variable {σ τ κ : Type} {store : Store σ κ} {cache : Cache τ} {peek : τ → Catalogue}
  {scope : Call → σ → Prop} {shows : Catalogue → σ → Prop}

/-- The outcomes of all calls, after those so far, keep the law. -/
theorem Store.Heeds.keepsTime_append (heeds : store.Heeds scope shows) (calls : List Call) :
    ∀ {held : Catalogue} {state : σ} {used : List String}
      {past : List (Σ call : Call, call.Outcome)}, shows held state → Dated held used past →
      (calls.filterMap Call.freshId?).Nodup →
      (∀ id ∈ calls.filterMap Call.freshId?, id ∉ used) → store.Within scope calls state →
      KeepsTime (past ++ replies store.outcome calls state) := by
  induction calls with
  | nil =>
    intro held state used past _ dated _ _ _
    rw [replies, List.append_nil]
    exact dated.law
  | cons call calls ih =>
    intro held state used past shown dated once fresh within
    obtain ⟨next, allowed, shown'⟩ := heeds call held state shown within.1
    obtain ⟨here, once', later⟩ := Call.freshIds_cons once fresh
    have dated' := dated.step here allowed
    have law := ih shown' dated' once' later within.2
    rw [List.append_assoc] at law
    exact law

/-- **A store that follows its catalogue or fails keeps the law of times**, as long as no identifier
is used twice. -/
theorem Store.Heeds.keepsTime (heeds : store.Heeds scope shows) {calls : List Call} {state : σ}
    (empty : shows (fun _ _ => none) state) (once : (calls.filterMap Call.freshId?).Nodup)
    (within : store.Within scope calls state) : KeepsTime (replies store.outcome calls state) :=
  heeds.keepsTime_append calls empty dated_empty once (fun _ _ => List.not_mem_nil) within

/-- The law is kept from behind the cache in memory too. -/
theorem Store.Heeds.keepsTime_cachedBy (heeds : store.Heeds scope shows) {calls : List Call}
    {state : σ} (empty : shows (fun _ _ => none) state)
    (once : (calls.filterMap Call.freshId?).Nodup) (capacity : Nat)
    (within : (store.cachedBy Lru.cache).Within (fun call medium => scope call medium.1) calls
      (state, { capacity })) :
    KeepsTime (replies (store.cachedBy Lru.cache).outcome calls (state, { capacity })) := by
  refine (heeds.cachedBy Lru.forgetful Lru.clears).keepsTime ⟨empty, Catalogue.own_empty, ?_⟩ once
    within
  exact Coherent.of_empty fun _ _ => rfl

end Runs

/-! ## The stores -/

/-- The store of documents in a file follows what the file holds, or fails since it is full. -/
theorem Lmdb.heeds {names : Set String} (distinct : Distinct names) (pageSize : Nat) :
    (store pageSize).Heeds (fun call _ => ∀ name ∈ call.names, name ∈ names) (Shows names) := by
  intro call held env shown known
  by_cases room : HasRoom call env
  · exact (follows distinct pageSize).heeds call held env shown ⟨known, room⟩
  · obtain ⟨post, files, full⟩ : ∃ post, env.entries.held.filed call = some post ∧
        env.capacity < env.entries.size + post.toDocument.length := by
      simp only [HasRoom, not_forall, Nat.not_le] at room
      obtain ⟨post, files, full⟩ := room
      exact ⟨post, files, full⟩
    cases call with
    | create user data fresh =>
      obtain rfl := Option.some.inj files
      have served : (store pageSize).serve (.create user data fresh) env =
          (.error Failure.mapFull.toStoreError, env) := by
        show transact (insert (Post.make user data fresh)) env = _
        rw [transact_insert shown.sound.settled, if_pos full]
      rw [Store.complete, served]
      exact ⟨held, .inr ⟨⟨_, rfl⟩, rfl⟩, shown⟩
    | update user id data clock =>
      obtain ⟨hu, hi⟩ := Call.names_pair known
      have changes := Entries.toOption_eq_some.1 files
      have served : (store pageSize).serve (.update user id data clock) env =
          (.error Failure.mapFull.toStoreError, env) := by
        rw [shown.sound.serve_update distinct pageSize hu hi, changes]
        exact if_pos full
      rw [Store.complete, served]
      exact ⟨held, .inr ⟨⟨_, rfl⟩, rfl⟩, shown⟩
    | read => cases files
    | readAll => cases files
    | delete => cases files

/-- A server is in order behind a cache too: it sees no more than the calls. -/
theorem Redis.Server.within_inOrder_cachedBy {τ : Type} (setup : StoreSetup) (cache : Cache τ)
    (calls : List Call) : ∀ {server : Server} {t : τ} {limit : Nat}, server.InOrder limit →
      limit + calls.length ≤ lastCursor →
      ((storeOver serve setup scanBound).cachedBy cache).Within
        (fun _ medium => medium.1.InOrder lastCursor) calls (server, t) := by
  induction calls with
  | nil => exact fun _ _ => trivial
  | cons call calls ih =>
    intro server t limit order few
    rw [List.length_cons] at few
    have next : (((storeOver serve setup scanBound).cachedBy cache).complete call
        (server, t)).2.1.InOrder (limit + 1) := by
      rcases complete_cachedBy (storeOver serve setup scanBound) cache call server t with
        ⟨-, state⟩ | ⟨-, state⟩
      · rw [state]
        exact order.complete setup call
      · rw [state]
        exact order.mono (Nat.le_succ limit)
    exact ⟨order.mono (by omega), ih next (by omega)⟩

/-- **Times never go back**, in a memory, in a document file of any capacity and with pages of any
size, and in a key-value server that acts as it should whenever it is called; each bare and behind a
cache of any size.  The stores begin empty, no identifier is used for two new posts, and no two
names have the same digest; nothing is asked of the clock. -/
theorem times_never_go_back {σ : Type}
    {serve : (command : Redis.Command) → σ → Redis.ReplyTo command × σ} {bound : σ → String → Nat}
    {sound : σ → Prop} {hash : σ → String → String → Option Bytes} (calls : List Call)
    (once : (calls.filterMap Call.freshId?).Nodup)
    (distinct : Lmdb.Distinct (Call.namesOf calls)) (pageSize capacity size : Nat)
    (acts : Redis.ActsAsHashes serve bound sound hash) (setup : Redis.StoreSetup) (count : Nat)
    (server : σ) (empty : ∀ key field, hash server key field = none)
    (bare : (Redis.storeOver serve (setup.withScanCount count) bound).Within
      (fun _ server => sound server) calls server)
    (cached : ((Redis.storeOver serve (setup.withScanCount count) bound).cachedBy Lru.cache).Within
      (fun _ medium => sound medium.1) calls (server, { capacity := size })) :
    KeepsTime (replies Memory.store.outcome calls {}) ∧
      KeepsTime (replies (Memory.store.cachedBy Lru.cache).outcome calls
        ({}, { capacity := size })) ∧
      KeepsTime (replies (Lmdb.store pageSize).outcome calls { capacity := capacity }) ∧
      KeepsTime (replies ((Lmdb.store pageSize).cachedBy Lru.cache).outcome calls
        ({ capacity := capacity }, { capacity := size })) ∧
      KeepsTime (replies (Redis.storeOver serve (setup.withScanCount count) bound).outcome calls
        server) ∧
      KeepsTime (replies ((Redis.storeOver serve (setup.withScanCount count) bound).cachedBy
        Lru.cache).outcome calls (server, { capacity := size })) := by
  have known : ∀ call ∈ calls, ∀ name ∈ call.names, name ∈ Call.namesOf calls :=
    fun call member name used => ⟨call, member, used⟩
  have memory := Memory.follows.heeds
  have file := Lmdb.heeds distinct pageSize
  have positive : 0 < (setup.withScanCount count).scanCount := Nat.le_max_right count 1
  have hashes := (Redis.follows acts positive).heeds
  have filed := Lmdb.shows_empty (Call.namesOf calls) capacity
  have hashed : Redis.Shows (setup.withScanCount count) hash (fun _ _ => none) server :=
    ⟨fun _ _ => empty _ _, Catalogue.own_empty, Catalogue.regular_empty⟩
  refine ⟨?_, ?_, ?_, ?_, ?_, ?_⟩
  · exact memory.keepsTime Memory.shows_empty once (Store.within_true _ calls _)
  · exact memory.keepsTime_cachedBy Memory.shows_empty once size (Store.within_true _ calls _)
  · exact file.keepsTime filed once (Store.within_of_forall _ calls _ known)
  · exact file.keepsTime_cachedBy filed once size (Store.within_of_forall _ calls _ known)
  · exact hashes.keepsTime hashed once bare
  · exact hashes.keepsTime_cachedBy hashed once size cached

/-- A clock at the second second of 1970. -/
def secondReading : ClockReading := ⟨⟨1, 0, by decide, Instant.epoch.fine⟩, by decide⟩

/-- A post is read, changed while the clock stands still, listed, and changed after the clock has
jumped back. -/
def diary : List Call :=
  [.create "a" "tea" ⟨"b", secondReading⟩, .create "b" "coffee" ⟨"a", .epoch⟩,
    .read "a" "b", .update "a" "b" "more tea" secondReading, .readAll "a",
    .update "a" "b" "most tea" .epoch, .delete "b" "a", .read "a" "b"]

/-- A setup whose scans ask for one field each. -/
def slowScans : Redis.StoreSetup := Redis.StoreSetup.withScanCount { keyPrefix := "posts:" } 1

/-- In pages of one document each and with a kilobyte of room, or with scans of one field each, and
behind a cache of one entry. -/
theorem times_never_go_back_diary :
    (diary.filterMap Call.freshId?).Nodup ∧ Lmdb.Distinct (Call.namesOf diary) ∧
      KeepsTime (replies ((Lmdb.store 1).cachedBy Lru.cache).outcome diary
        ({ capacity := 1024 }, { capacity := 1 })) ∧
      KeepsTime (replies ((Redis.store slowScans).cachedBy Lru.cache).outcome diary
        ({}, { capacity := 1 })) := by
  have once : (diary.filterMap Call.freshId?).Nodup := by decide
  have distinct : Lmdb.Distinct (Call.namesOf diary) :=
    Lmdb.distinct_of_pairwise (by decide +kernel)
  have few : 0 + diary.length ≤ Redis.Server.lastCursor := by decide
  have order := Redis.Server.inOrder_empty
  have bare := Redis.Server.within_inOrder slowScans diary order few
  have cached : ((Redis.storeOver Redis.Server.serve slowScans
      Redis.Server.scanBound).cachedBy Lru.cache).Within
      (fun _ medium => medium.1.InOrder Redis.Server.lastCursor) diary ({}, { capacity := 1 }) :=
    Redis.Server.within_inOrder_cachedBy _ Lru.cache diary order few
  obtain ⟨-, -, -, file, -, hashes⟩ := times_never_go_back diary once distinct 1 1024 1
    Redis.Server.actsAsHashes { keyPrefix := "posts:" } 1 {} (fun _ _ => rfl) bare cached
  exact ⟨once, distinct, file, hashes⟩

end PostStore
