import PostStore.Proofs.Asking
import PostStore.Proofs.FailedCalls
import PostStore.Proofs.ServiceRuns
/-!
# What responses tell of failures

Two stores may fail in different words, at the same calls and at the same places of a listing.
Whoever calls the service cannot tell which of the two is behind it: of a failure a response shows
only whether a post was missing.  And a call with an empty argument never reaches a store.
-/

namespace PostStore

/-! ## Failures that say alike -/

namespace StoreError

/-- Both failures are of a missing post, or neither is; and both leave a call without an answer, as
that of a post that can never be changed again does, or neither does. -/
structure Alike (error error' : StoreError) : Prop where
  missing : error.isNotFound = error'.isNotFound
  endless : error = .noLaterInstant ↔ error' = .noLaterInstant

theorem Alike.refl (error : StoreError) : error.Alike error := ⟨rfl, Iff.rfl⟩

/-- Two failures look the same to a client just when they say alike. -/
theorem alike_iff {error error' : StoreError} :
    error.Alike error' ↔ Refusal.ofStore error = Refusal.ofStore error' := by
  constructor
  · rintro ⟨missing, endless⟩
    cases error <;> cases error' <;> simp_all [isNotFound, Refusal.ofStore]
  · intro same
    constructor <;>
      cases error <;> cases error' <;>
        simp_all [isNotFound, Refusal.ofStore, ServiceError.invalidArgument, ServiceError.internal]

/-- Results that are the same in the sense given, or failures that say alike. -/
inductive SameBut {α β : Type} (same : α → β → Prop) :
    Except StoreError α → Except StoreError β → Prop where
  | ok {value : α} {value' : β} (related : same value value') :
      SameBut same (.ok value) (.ok value')
  | error {e e' : StoreError} (alike : e.Alike e') : SameBut same (.error e) (.error e')

end StoreError

open StoreError (SameBut)

/-- What two calls give that is the same: equal posts, or related cursors. -/
def Call.SameResult {κ κ' : Type} (paired : κ → κ' → Prop) :
    (call : Call) → call.Result κ → call.Result κ' → Prop
  | .create .., post, post' => post = post'
  | .read .., post, post' => post = post'
  | .readAll _, cursor, cursor' => paired cursor cursor'
  | .update .., post, post' => post = post'
  | .delete .., _, _ => True

/-! ## Stores that differ in their failures only -/

section Stores

variable {σ σ' κ κ' : Type}

/-- A reader who takes elements up to the first that fails takes fewer posts than a limit. -/
def Feed.TakesFewer (feed : Feed σ κ) (limit : Nat) (cursor : κ) (state : σ) : Prop :=
  ∀ rounds, ((feed.loop rounds cursor state).takeWhile Except.isOk).length < limit

/-- Two stores answer every call alike but for what their failures say, and so do the cursors that
they hand out, at every step.  A cursor advances no more often than its feed says that it may. -/
structure Store.FailsApart (store : Store σ κ) (store' : Store σ' κ') (related : σ → σ' → Prop)
    (reading : κ × σ → κ' × σ' → Prop) : Prop where
  serve : ∀ call s s', related s s' →
    related (store.serve call s).2 (store'.serve call s').2 ∧
      SameBut (call.SameResult fun cursor cursor' =>
          reading (cursor, (store.serve call s).2) (cursor', (store'.serve call s').2))
        (store.serve call s).1 (store'.serve call s').1
  related : ∀ cursor s cursor' s', reading (cursor, s) (cursor', s') → related s s'
  next : ∀ cursor s cursor' s', reading (cursor, s) (cursor', s') →
    (store.feed.next cursor s).1 = (store'.feed.next cursor' s').1 ∧
      reading (store.feed.next cursor s).2 (store'.feed.next cursor' s').2
  get : ∀ cursor s cursor' s', reading (cursor, s) (cursor', s') →
    SameBut Eq (store.feed.get cursor).1 (store'.feed.get cursor').1 ∧
      reading ((store.feed.get cursor).2, s) ((store'.feed.get cursor').2, s')
  ends : ∀ cursor s cursor' s', reading (cursor, s) (cursor', s') →
    store.feed.TakesFewer (store.feed.pending cursor s + 1) cursor s ∧
      store'.feed.TakesFewer (store'.feed.pending cursor' s' + 1) cursor' s'

/-! ## Listings -/

section Draining

variable {feed : Feed σ κ} {limit : Nat} {cursor cursor' : κ} {state state' : σ} {post : Post}

theorem Feed.TakesFewer.pos (few : feed.TakesFewer limit cursor state) :
    ∃ fewer, limit = fewer + 1 :=
  Nat.exists_eq_succ_of_ne_zero (Nat.ne_of_gt (Nat.zero_lt_of_lt (few 0)))

/-- When a post has been taken, there is one fewer to take. -/
theorem Feed.TakesFewer.tail (few : feed.TakesFewer (limit + 1) cursor state)
    (reached : feed.next cursor state = (true, cursor', state'))
    (taken : (feed.get cursor').1 = .ok post) :
    feed.TakesFewer limit (feed.get cursor').2 state' := by
  intro rounds
  have whole := few (rounds + 1)
  rw [Feed.loop_true reached, taken, List.takeWhile_cons_of_pos rfl, List.length_cons] at whole
  omega

end Draining

section Reading

variable {store : Store σ κ} {store' : Store σ' κ'} {related : σ → σ' → Prop}
  {reading : κ × σ → κ' × σ' → Prop}

/-- Draining related cursors gives the same posts, or failures that say alike. -/
theorem Store.FailsApart.drain (apart : store.FailsApart store' related reading) {limit : Nat} :
    ∀ {limit' : Nat} {cursor : κ} {s : σ} {cursor' : κ'} {s' : σ'} (got : List Post),
      reading (cursor, s) (cursor', s') → store.feed.TakesFewer limit cursor s →
      store'.feed.TakesFewer limit' cursor' s' →
        let ended := (PostStore.drain got limit).run store.feed.serve (cursor, s)
        let ended' := (PostStore.drain got limit').run store'.feed.serve (cursor', s')
        SameBut Eq ended.1 ended'.1 ∧ related ended.2.2 ended'.2.2 := by
  -- neither limit is met before the reader stops, so that they need not be the same
  induction limit with
  | zero => exact fun _ _ few => absurd (few 0) (Nat.not_lt_zero _)
  | succ limit ih =>
    intro limit' cursor s cursor' s' got pair few few'
    obtain ⟨limit', rfl⟩ := few'.pos
    obtain ⟨same, onward⟩ := apart.next cursor s cursor' s' pair
    rcases reached : store.feed.next cursor s with ⟨more, cursor₁, s₁⟩
    rcases reached' : store'.feed.next cursor' s' with ⟨more', cursor₁', s₁'⟩
    rw [reached, reached'] at same onward
    obtain rfl : more = more' := same
    cases more with
    | false =>
      rw [Feed.run_drain_false limit got reached, Feed.run_drain_false limit' got reached']
      exact ⟨.ok rfl, apart.related _ _ _ _ onward⟩
    | true =>
      obtain ⟨element, beyond⟩ := apart.get cursor₁ s₁ cursor₁' s₁' onward
      -- a failure ends both, a post is taken by both
      generalize taken : (store.feed.get cursor₁).1 = result at element
      generalize taken' : (store'.feed.get cursor₁').1 = result' at element
      cases element with
      | error alike =>
        rw [Feed.run_drain_error limit got reached taken,
          Feed.run_drain_error limit' got reached' taken']
        exact ⟨.error alike, apart.related _ _ _ _ beyond⟩
      | @ok post _ same =>
        obtain rfl := same
        rw [Feed.run_drain_ok limit got reached taken, Feed.run_drain_ok limit' got reached' taken']
        exact ih (post :: got) beyond (few.tail reached taken) (few'.tail reached' taken')

/-- Listings from related states give the same posts, or failures that say alike. -/
theorem Store.FailsApart.listAll (apart : store.FailsApart store' related reading) (user : String)
    {s : σ} {s' : σ'} (start : related s s') :
    SameBut Eq (Service.listAll store user s).1 (Service.listAll store' user s').1 ∧
      related (Service.listAll store user s).2 (Service.listAll store' user s').2 := by
  obtain ⟨next, answer⟩ := apart.serve (.readAll user) s s' start
  unfold Service.listAll
  rcases opened : store.serve (.readAll user) s with ⟨result, s₁⟩
  rcases opened' : store'.serve (.readAll user) s' with ⟨result', s₁'⟩
  rw [opened, opened'] at next answer
  cases answer with
  | error alike => exact ⟨.error alike, next⟩
  | @ok cursor cursor' pair =>
    obtain ⟨few, few'⟩ := apart.ends _ _ _ _ pair
    have drained := apart.drain [] pair few few'
    simp only [Feed.collect, PostStore.collect, Dialogue.run_bind, Dialogue.run, Feed.serve]
    exact drained

end Reading

end Stores

/-! ## Two stores that tell secrets -/

/-- A cursor with nothing left to fetch delivers no more than it has fetched. -/
theorem Cursor.length_loop_le {σ δ : Type} (decode : δ → Except StoreError Post) (state : σ)
    (rounds : Nat) : ∀ cursor : Cursor Empty δ,
      ((feed (fun mark _ => mark.elim) decode fun _ _ => 0).loop rounds cursor state).length ≤
        cursor.buffer.length := by
  induction rounds with
  | zero => exact fun _ => Nat.zero_le _
  | succ rounds ih =>
    rintro ⟨_ | mark, buffer, current, _ | _⟩
    · cases buffer with
      | nil => exact (congrArg List.length (Feed.loop_false rfl _)).le
      | cons element rest =>
        rw [Feed.loop_true rfl, List.length_cons]
        exact Nat.succ_le_succ (ih ⟨none, rest, none, false⟩)
    · exact (congrArg List.length (Feed.loop_false rfl _)).le.trans (Nat.zero_le _)
    · exact mark.elim
    · exact mark.elim

namespace Memory

/-- What a store says of a missing post that tells a secret. -/
def betray (secret : String) : StoreError → StoreError
  | .notFound _ _ => .notFound secret secret
  | e => e

/-- A store in memory that tells a secret when a post is missing, and fails in a way of its own at
posts whose text is torn. -/
def indiscreet (secret : String) (torn : StoreError) : Store Memory Snapshot where
  name := secret
  serve call memory := ((memory.serve call).1.mapError (betray secret), (memory.serve call).2)
  feed := Cursor.feed (fun mark _ => mark.elim)
    (fun post => if post.data = "torn" then .error torn else .ok post) fun _ _ => 0

theorem betray_alike (secret secret' : String) (e : StoreError) :
    (betray secret e).Alike (betray secret' e) := by
  cases e <;> constructor <;> simp [betray, StoreError.isNotFound]

theorem indiscreet_ends (secret : String) (torn : StoreError) (cursor : Snapshot)
    (memory : Memory) : (indiscreet secret torn).feed.TakesFewer
      ((indiscreet secret torn).feed.pending cursor memory + 1) cursor memory := by
  intro rounds
  have bounded : ((indiscreet secret torn).feed.loop rounds cursor memory).length ≤
      cursor.buffer.length :=
    Cursor.length_loop_le _ memory rounds cursor
  have pending : cursor.buffer.length ≤ (indiscreet secret torn).feed.pending cursor memory :=
    Nat.le_add_right _ _
  exact Nat.lt_succ_of_le
    (((List.takeWhile_sublist _).length_le.trans bounded).trans pending)

/-- Two such stores differ in their failures only. -/
theorem indiscreet_apart (secret secret' : String) {torn torn' : StoreError}
    (alike : torn.Alike torn') :
    (indiscreet secret torn).FailsApart (indiscreet secret' torn') Eq Eq where
  serve := by
    rintro call memory _ rfl
    refine ⟨rfl, ?_⟩
    show SameBut _ ((memory.serve call).1.mapError _) ((memory.serve call).1.mapError _)
    rcases (memory.serve call).1 with e | value
    · exact .error (betray_alike secret secret' e)
    · refine .ok ?_
      cases call <;> first | rfl | trivial
  related := by
    rintro cursor memory _ _ ⟨⟩
    rfl
  next := by
    rintro cursor memory _ _ ⟨⟩
    exact ⟨rfl, rfl⟩
  get := by
    rintro ⟨mark, buffer, current, closed⟩ memory _ _ ⟨⟩
    rcases current with _ | e | post
    · exact ⟨.error (.refl .misuse), rfl⟩
    · exact ⟨.error (.refl e), rfl⟩
    · refine ⟨?_, rfl⟩
      show SameBut Eq (if post.data = "torn" then _ else _) (if post.data = "torn" then _ else _)
      split
      · exact .error alike
      · exact .ok rfl
  ends := by
    rintro cursor memory _ _ ⟨⟩
    exact ⟨indiscreet_ends secret torn cursor memory, indiscreet_ends secret' torn' cursor memory⟩

end Memory

/-- A listing that breaks off at its second post, a missing post, and an empty argument. -/
def mishaps : List Call :=
  [.create "a" "tea" ⟨"1", .epoch⟩, .create "a" "torn" ⟨"2", .epoch⟩, .readAll "a", .read "a" "3",
    .readAll ""]

/-! ## Responses -/

namespace Service

section Responses

variable {ω ω' κ κ' : Type} {related : ω → ω' → Prop} {w : ω} {w' : ω'}

/-- Of results that are the same but for what failures say, a client sees the same. -/
theorem present_alike {α α' β : Type} {same : α → α' → Prop} {view : α → β} {view' : α' → β}
    (views : ∀ value value', same value value' → view value = view' value')
    {step : ω → Except StoreError α × ω} {step' : ω' → Except StoreError α' × ω'}
    (next : related (step w).2 (step' w').2) (results : SameBut same (step w).1 (step' w').1) :
    (present view step w).1 = (present view' step' w').1 ∧
      related (present view step w).2 (present view' step' w').2 := by
  unfold present
  rcases stepped : step w with ⟨result, w₁⟩
  rcases stepped' : step' w' with ⟨result', w₁'⟩
  rw [stepped, stepped'] at next results
  cases results with
  | ok pair => exact ⟨congrArg Except.ok (views _ _ pair), next⟩
  | error alike => exact ⟨congrArg Except.error (StoreError.alike_iff.1 alike), next⟩

/-- A check comes before the stores, so it does not tell them apart. -/
theorem guarded_alike {α : Type} (check : Except Refusal Unit) (start : related w w')
    {step : ω → Except Refusal α × ω} {step' : ω' → Except Refusal α × ω'}
    (stepped : (step w).1 = (step' w').1 ∧ related (step w).2 (step' w').2) :
    (guarded check step w).1 = (guarded check step' w').1 ∧
      related (guarded check step w).2 (guarded check step' w').2 := by
  cases check with
  | error refusal => exact ⟨rfl, start⟩
  | ok passed => exact stepped

variable {store : Store ω κ} {store' : Store ω' κ'} {reading : κ × ω → κ' × ω' → Prop}

/-- One call gives the same response over both stores, and leaves them in related states. -/
theorem serve_alike (apart : store.FailsApart store' related reading) (call : Call)
    (start : related w w') :
    (serve store call w).1 = (serve store' call w').1 ∧
      related (serve store call w).2 (serve store' call w').2 := by
  have called := apart.serve call w w' start
  cases call with
  | create user data fresh =>
    refine guarded_alike _ start (present_alike ?_ called.1 called.2)
    rintro post _ rfl
    rfl
  | read user id =>
    refine guarded_alike _ start (present_alike ?_ called.1 called.2)
    rintro post _ rfl
    rfl
  | readAll user =>
    obtain ⟨posts, next⟩ := apart.listAll user start
    refine guarded_alike _ start (present_alike ?_ next posts)
    rintro listed _ rfl
    rfl
  | update user id data clock =>
    refine guarded_alike _ start (present_alike ?_ called.1 called.2)
    rintro post _ rfl
    rfl
  | delete user id =>
    refine guarded_alike _ start (present_alike ?_ called.1 called.2)
    intro done done' _
    rfl

end Responses

/-- **Responses carry nothing of the failures behind them.**  Over two stores that differ only in
what their failures say, calls made one after the other get the same responses; and a call with an
empty argument is not passed on to the store. -/
theorem responses_hide_failures :
    (∀ {ω ω' κ κ' : Type} (store : Store ω κ) (store' : Store ω' κ') (related : ω → ω' → Prop)
      (reading : κ × ω → κ' × ω' → Prop), store.FailsApart store' related reading →
        ∀ (calls : List Call) (w : ω) (w' : ω'), related w w' →
          replies (exchange store) calls w = replies (exchange store') calls w') ∧
      ∀ {ω κ : Type} (store : Store ω κ) (call : Call), call.Incomplete →
        ∀ state : ω × List (Recorded κ), (serve store.recorded call state).2 = state := by
  constructor
  · intro ω ω' κ κ' store store' related reading apart calls w w' start
    refine replies_eq related (fun call w w' pair => ?_) calls start
    obtain ⟨alike, next⟩ := serve_alike apart call pair
    refine ⟨?_, next⟩
    show (⟨call, (serve store call w).1⟩ : Exchange) = ⟨call, (serve store' call w').1⟩
    rw [alike]
  · intro ω κ store call incomplete state
    obtain ⟨message, refused⟩ := serve_of_incomplete store.recorded incomplete state
    rw [refused]

/-- Two stores with secrets of their own, one of which fails to reach its medium where the other
finds what is not a post, get the same responses; and an empty argument reaches neither. -/
theorem responses_hide_failures_mishaps :
    let store := Memory.indiscreet "hunter2" (.backend "postgres" "postgres://admin:hunter2@db")
    let store' := Memory.indiscreet "b" (.decode "redis" "post 2 of user b")
    replies (exchange store) mishaps {} = replies (exchange store') mishaps {} ∧
      (replies (exchange store) mishaps {})[2]? = some ⟨.readAll "a", .error (.reply .internal)⟩ ∧
      (serve store.recorded (.readAll "") ({}, [])).2 = ({}, []) := by
  have alike : (StoreError.backend "postgres" "postgres://admin:hunter2@db").Alike
      (.decode "redis" "post 2 of user b") := by
    constructor <;> simp [StoreError.isNotFound]
  exact ⟨responses_hide_failures.1 _ _ _ _ (Memory.indiscreet_apart _ _ alike) mishaps {} {} rfl,
    rfl, responses_hide_failures.2 _ (.readAll "") rfl _⟩

end Service

end PostStore
