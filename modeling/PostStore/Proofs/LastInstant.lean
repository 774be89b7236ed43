import PostStore.Proofs.Lmdb.Holdings
import PostStore.Proofs.Lmdb.Transactions
import PostStore.Proofs.Redis.Misfiled
import PostStore.Proofs.Texts
import PostStore.Store.Layer
/-!
# Changes at the end of the time line

A change moves the time of the last change forward, by a microsecond at least.  The time line ends,
and the documents that are accepted may tell of any instant on it; so a post that was changed last
in its last microsecond cannot be changed any more.  Nothing else in a file or in a hash keeps a
change from ending well, with the changed post or with a failure of the store.

In memory such a change kills its caller and leaves the lock of the store behind: until then the
store behind its lock answers as the store does without one, and from then on it answers nothing.
-/

namespace PostStore

/-! ## The last microsecond -/

namespace Instant

/-- The instants of the last microsecond of the time line, whose last second may be a leap
second. -/
def IsLast (t : Instant) : Prop :=
  t.seconds = lastSecond ∧
    ((999999000 ≤ t.nanos ∧ t.nanos < 1000000000) ∨ 1999999000 ≤ t.nanos)

instance (t : Instant) : Decidable t.IsLast := by unfold IsLast; infer_instance

theorem ofParts?_eq_none {seconds : Int} {nanos : Nat} :
    ofParts? seconds nanos = none ↔
      ¬ ((firstSecond ≤ seconds ∧ seconds ≤ lastSecond) ∧ nanos < 2000000000) := by
  unfold ofParts?
  split
  · exact iff_of_false (Option.some_ne_none _) (not_not_intro ‹_›)
  · exact ⟨fun _ => ‹_›, fun _ => rfl⟩

/-- Nothing is a microsecond later than the last microsecond, and than that only. -/
theorem addMicro?_eq_none {t : Instant} : t.addMicro? = none ↔ t.IsLast := by
  have bounded := t.bounded
  have fine := t.fine
  have last : lastSecond % 60 = 59 := by decide
  have wide : firstSecond < lastSecond := by decide
  simp only [addMicro?, IsLast]
  split <;> split <;> rw [ofParts?_eq_none] <;> omega

end Instant

/-- A post cannot be changed any more just if it was changed last in the last microsecond. -/
theorem Post.withData?_eq_none {post : Post} {data : String} {clock : Instant} :
    post.withData? data clock = none ↔ post.updatedAt.IsLast := by
  rw [withData?, Instant.next?, Option.map_eq_none_iff, Option.map_eq_none_iff,
    Instant.addMicro?_eq_none]

/-! ## How a change ends -/

section Ends

variable {σ : Type} {tells : Post → Prop} {same : σ → Prop} {data : String} {clock : ClockReading}

/-- The ways in which a change can end, given the posts that are told of where it looks: it fails,
it finds a post that cannot be changed any more, or it gives what is made of the post.  Unless it
gives a post the medium is the same as before. -/
inductive ChangeEnds (tells : Post → Prop) (same : σ → Prop) (data : String)
    (clock : ClockReading) : Except StoreError Post × σ → Prop
  | failed (e : StoreError) (after : σ) (other : e ≠ .noLaterInstant)
      (early : ∀ post, tells post → ¬ post.updatedAt.IsLast) (kept : same after) :
      ChangeEnds tells same data clock (.error e, after)
  | tooLate (post : Post) (after : σ) (found : tells post) (last : post.updatedAt.IsLast)
      (kept : same after) : ChangeEnds tells same data clock (.error .noLaterInstant, after)
  | given (post changed : Post) (after : σ) (found : tells post)
      (early : ∀ post, tells post → ¬ post.updatedAt.IsLast)
      (later : post.withData? data clock = some changed) :
      ChangeEnds tells same data clock (.ok changed, after)

/-- A change ends well: with what it makes of the post that is there, or with a failure other than
that there is no later instant, and then with nothing changed. -/
def EndsWell (tells : Post → Prop) (same : σ → Prop) (data : String) (clock : ClockReading)
    (outcome : Except StoreError Post × σ) : Prop :=
  (∃ post changed, tells post ∧ post.withData? data clock = some changed ∧
    outcome.1 = .ok changed) ∨
  ∃ e, e ≠ .noLaterInstant ∧ outcome.1 = .error e ∧ same outcome.2

variable {outcome : Except StoreError Post × σ}

/-- A change ends well unless a post of the last microsecond is told of. -/
theorem ChangeEnds.endsWell_iff (ends : ChangeEnds tells same data clock outcome) :
    EndsWell tells same data clock outcome ↔ ∀ post, tells post → ¬ post.updatedAt.IsLast := by
  cases ends with
  | failed e after other early kept => exact ⟨fun _ => early, fun _ => .inr ⟨e, other, rfl, kept⟩⟩
  | tooLate post after found last kept =>
    refine ⟨?_, fun early => absurd last (early post found)⟩
    rintro (⟨_, _, _, _, given⟩ | ⟨e, other, same, _⟩)
    · exact nomatch given
    · exact absurd (Except.error.inj same).symm other
  | given post changed after found early later =>
    exact ⟨fun _ => early, fun _ => .inl ⟨post, changed, found, later, rfl⟩⟩

/-- If it does not end well there is no later instant, and nothing is changed. -/
theorem ChangeEnds.of_not_endsWell (ends : ChangeEnds tells same data clock outcome)
    (bad : ¬ EndsWell tells same data clock outcome) :
    outcome.1 = .error .noLaterInstant ∧ same outcome.2 := by
  cases ends with
  | failed e after other early kept => exact absurd (.inr ⟨e, other, rfl, kept⟩) bad
  | tooLate post after found last kept => exact ⟨rfl, kept⟩
  | given post changed after found early later =>
    exact absurd (.inl ⟨post, changed, found, later, rfl⟩) bad

end Ends

/-! ## The document file -/

namespace Lmdb

/-- Under the key of a user and an identifier there is a document of a post, whoever that post
belongs to. -/
def Environment.Tells (env : Environment) (user id : String) (post : Post) : Prop :=
  ∃ document, env.entries.get? (postKey user id) = some document ∧
    Post.ofDocument document = .ok post

section File

variable {env : Environment} {user id data : String} {clock : ClockReading}

theorem decode_eq_ok {document : Bytes} {post : Post} :
    decode document = .ok post ↔ Post.ofDocument document = .ok post := by
  unfold decode
  cases Post.ofDocument document <;> simp only [Except.ok.injEq, reduceCtorEq]

theorem decode_ne_noLaterInstant (document : Bytes) :
    decode document ≠ .error .noLaterInstant := by
  unfold decode
  split <;> exact nofun

theorem Environment.Tells.unique {post post' : Post} (first : env.Tells user id post)
    (second : env.Tells user id post') : post = post' := by
  obtain ⟨document, there, read⟩ := first
  obtain ⟨document', there', read'⟩ := second
  obtain rfl := Option.some.inj (there.symm.trans there')
  exact Except.ok.inj (read.symm.trans read')

/-- A change does not look at a draft that it finds. -/
theorem transact_modify_abandon (user id data : String) (clock : ClockReading) (env : Environment) :
    transact (modify user id data clock) env =
      transact (modify user id data clock) env.abandon := rfl

theorem modify_ends (user id data : String) (clock : ClockReading) (env : Environment) :
    ChangeEnds (env.Tells user id) (· = env.abandon) data clock
      (transact (modify user id data clock) env) := by
  rw [transact_modify_abandon, transact_modify rfl]
  have entries : env.abandon.entries = env.entries := rfl
  rw [entries]
  cases there : env.entries.get? (postKey user id) with
  | none =>
    refine .failed _ _ nofun ?_ rfl
    rintro post ⟨document, there', -⟩
    exact nomatch there.symm.trans there'
  | some document =>
    simp only [Option.map_some]
    cases read : decode document with
    | error e =>
      refine .failed e _ (fun same => decode_ne_noLaterInstant document (same ▸ read)) ?_ rfl
      rintro post ⟨document', there', read'⟩
      obtain rfl := Option.some.inj (there.symm.trans there')
      exact nomatch read.symm.trans (decode_eq_ok.2 read')
    | ok post =>
      have found : env.Tells user id post := ⟨document, there, decode_eq_ok.1 read⟩
      simp only
      cases later : post.withData? data clock with
      | none => exact .tooLate post _ found (Post.withData?_eq_none.1 later) rfl
      | some changed =>
        have early : ∀ post', env.Tells user id post' → ¬ post'.updatedAt.IsLast := by
          intro post' found' last
          obtain rfl := found.unique found'
          exact nomatch later.symm.trans (Post.withData?_eq_none.2 last)
        simp only
        split
        · exact .failed _ _ nofun early rfl
        · exact .given post changed _ found early later

end File

end Lmdb

/-! ## The key-value server -/

namespace Redis

/-- In the field of a user and an identifier there is the text of a document of a post, whoever that
post belongs to. -/
def Server.Tells (setup : StoreSetup) (server : Server) (user id : String) (post : Post) : Prop :=
  ∃ document, server.value (setup.userKey user) id = some (Text.utf8 document) ∧
    Post.ofDocument (Text.utf8 document) = .ok post

section Hash

variable {setup : StoreSetup} {server : Server} {user id data : String} {clock : ClockReading}

theorem decode_eq_ok {text : String} {post : Post} :
    decode text = .ok post ↔ Post.ofDocument (Text.utf8 text) = .ok post := by
  unfold decode
  simp only
  cases Post.ofDocument (Text.utf8 text) <;> simp only [Except.ok.injEq, reduceCtorEq]

theorem decode_ne_noLaterInstant (text : String) : decode text ≠ .error .noLaterInstant := by
  unfold decode
  simp only
  split <;> exact nofun

/-- A lookup never says that there is no later instant. -/
theorem read_ne_noLaterInstant (setup : StoreSetup) (user id : String) (server : Server) :
    ((store setup).serve (.read user id) server).1 ≠ .error .noLaterInstant := by
  show (converseWith Server.serve (find setup user id) server).1 ≠ _
  rw [find, converse_send_eq]
  split
  · rename_i reply _
    cases understood : reply.toText? with
    | error problem => exact Except.error.inj.mt StoreError.noConfusion
    | ok found =>
      rw [converse_understand _ rfl]
      cases found with
      | none => exact Except.error.inj.mt StoreError.noConfusion
      | some document => exact decode_ne_noLaterInstant document
  · exact Except.error.inj.mt StoreError.noConfusion

/-- A lookup finds the post that the field tells of. -/
theorem read_eq_ok (calm : server.queued = []) {post : Post} :
    ((store setup).serve (.read user id) server).1 = .ok post ↔
      server.Tells setup user id post := by
  show (converseWith Server.serve (find setup user id) server).1 = .ok post ↔ _
  let command : Command := .hget (setup.userKey user) id
  cases there : server.value (setup.userKey user) id with
  | none =>
    have served : Server.serve command server = (.nil, server.log command) := by
      have gone : Bindings.get? id (Server.fields (server.log command) (setup.userKey user)) =
        none := there
      rw [Server.serve_of_calm calm, Server.execute, gone]
    rw [find, converse_send _ served rfl]
    constructor
    · rintro ⟨⟩
    · rintro ⟨document, there', -⟩
      cases there.symm.trans there'
  | some bytes =>
    have served : Server.serve command server = (.bulk bytes, server.log command) := by
      have here : Bindings.get? id (Server.fields (server.log command) (setup.userKey user)) =
        some bytes := there
      rw [Server.serve_of_calm calm, Server.execute, here]
    rw [find, converse_send _ served rfl]
    cases read : Text.ofUtf8? bytes with
    | none =>
      have garbled : (Reply.bulk bytes).toText? = .error .notText := by
        simp only [Reply.toText?, Reply.toText, read]
        rfl
      rw [garbled]
      constructor
      · rintro ⟨⟩
      · rintro ⟨document, there', -⟩
        rw [Option.some.inj (there.symm.trans there'), Text.ofUtf8?_utf8] at read
        cases read
    | some text =>
      obtain rfl := Text.utf8_of_ofUtf8? read
      have understood : (Reply.bulk (Text.utf8 text)).toText? = .ok (some text) := by
        simp only [Reply.toText?, Reply.toText, read]
        rfl
      rw [converse_understand _ understood]
      refine decode_eq_ok.trans ⟨fun told => ⟨text, there, told⟩, ?_⟩
      rintro ⟨document, there', told⟩
      rwa [Option.some.inj (there.symm.trans there')]

theorem queued_looked (calm : server.queued = []) (setup : StoreSetup) (user id : String) :
    (looked setup user id server).queued = [] := by
  rw [looked_eq, Server.serve_of_calm calm, Server.execute]
  split <;> exact calm

/-- What is filed in a server that acts on commands is given back. -/
theorem converse_file_calm (calm : server.queued = []) (setup : StoreSetup) (post : Post) :
    ∃ after, converseWith Server.serve (file setup post) server = (.ok post, after) := by
  rw [file, converse_send_eq, Server.serve_of_calm calm]
  exact ⟨_, rfl⟩

theorem modify_ends (calm : server.queued = []) (setup : StoreSetup) (user id data : String)
    (clock : ClockReading) :
    ChangeEnds (server.Tells setup user id) (·.database = server.database) data clock
      ((store setup).serve (.update user id data clock) server) := by
  have update : (store setup).serve (.update user id data clock) server =
      converseWith Server.serve (modify setup user id data clock) server := rfl
  have read : (store setup).serve (.read user id) server =
      converseWith Server.serve (find setup user id) server := rfl
  have kept := database_looked setup user id server
  rw [update, modify, converse_bind, ← read]
  cases found : ((store setup).serve (.read user id) server).1 with
  | error e =>
    refine .failed e _ (fun same => ?_) (fun post told => ?_) kept
    · exact read_ne_noLaterInstant setup user id server (found.trans (congrArg _ same))
    · cases found.symm.trans ((read_eq_ok calm).2 told)
  | ok post =>
    have told : server.Tells setup user id post := (read_eq_ok calm).1 found
    have only (post' : Post) (told' : server.Tells setup user id post') : post' = post :=
      Except.ok.inj (((read_eq_ok calm).2 told').symm.trans found)
    cases later : post.withData? data clock with
    | none =>
      simp only [later]
      exact .tooLate post _ told (Post.withData?_eq_none.1 later) kept
    | some changed =>
      have early (post' : Post) (told' : server.Tells setup user id post') :
          ¬ post'.updatedAt.IsLast := by
        rw [only post' told', ← Post.withData?_eq_none, later]
        exact Option.some_ne_none changed
      simp only [later]
      obtain ⟨after, filed⟩ := converse_file_calm (queued_looked calm setup user id) setup changed
      rw [looked] at filed
      rw [filed]
      exact .given post changed after told early later

end Hash

end Redis

/-! ## Changes that end well -/

/-- **A change ends well unless it is one of a post of the last microsecond.**  This holds for every
content of a document file and of a key-value server, for every text and every reading of the clock:
just if the document that is looked up, under whatever names it was filed there, is one of a post
that was changed last in the last microsecond of the time line, the change neither gives a post nor
fails as a store fails; then there is no later instant, and everything is left as it was. -/
theorem update_endsWell_iff (user id data : String) (clock : ClockReading) :
    (∀ (pageSize : Nat) (env : Lmdb.Environment),
      let outcome := (Lmdb.store pageSize).serve (.update user id data clock) env
      let endsWell := EndsWell (env.Tells user id) (· = env.abandon) data clock outcome
      (endsWell ↔ ∀ post, env.Tells user id post → ¬ post.updatedAt.IsLast) ∧
        (¬ endsWell → outcome = (.error .noLaterInstant, env.abandon))) ∧
    ∀ (setup : Redis.StoreSetup) (server : Redis.Server), server.queued = [] →
      let outcome := (Redis.store setup).serve (.update user id data clock) server
      let endsWell := EndsWell (server.Tells setup user id) (·.database = server.database) data
        clock outcome
      (endsWell ↔ ∀ post, server.Tells setup user id post → ¬ post.updatedAt.IsLast) ∧
        (¬ endsWell → outcome.1 = .error .noLaterInstant ∧
          outcome.2.database = server.database) := by
  constructor
  · intro pageSize env
    have ends := Lmdb.modify_ends user id data clock env
    exact ⟨ends.endsWell_iff, fun bad => Prod.ext_iff.2 (ends.of_not_endsWell bad)⟩
  · intro setup server calm
    have ends := Redis.modify_ends calm setup user id data clock
    exact ⟨ends.endsWell_iff, ends.of_not_endsWell⟩

/-- A post that was changed last at some instant. -/
def postOf (changed : Instant) : Post := ⟨"u", "p", "v1", .epoch, changed⟩

/-- A document file with the document of a post in its place, and nothing else. -/
def fileOf (post : Post) : Lmdb.Environment where
  capacity := 1048576
  entries := [(Lmdb.postKey post.user post.id, post.toDocument)]

/-- A key-value server with the document of a post in its place, and nothing else. -/
def serverOf (setup : Redis.StoreSetup) (post : Post) : Redis.Server where
  hashes := [(setup.userKey post.user, [(post.id, post.toDocument)])]

theorem tells_fileOf {post : Post} (regular : post.Regular) :
    (fileOf post).Tells post.user post.id post := by
  refine ⟨post.toDocument, ?_, Post.ofDocument_toDocument regular⟩
  simp only [fileOf, Lmdb.Entries.get?, if_true]

theorem tells_serverOf (setup : Redis.StoreSetup) {post : Post} (regular : post.Regular) :
    (serverOf setup post).Tells setup post.user post.id post := by
  obtain ⟨document, same⟩ := post.isText_toDocument
  refine ⟨document, ?_, ?_⟩
  · simp only [Redis.Server.value, Redis.Server.fields, serverOf, Bindings.get?, same, if_true,
      Option.getD_some]
  · rw [same, Post.ofDocument_toDocument regular]

/-- A setup of the store in the key-value server. -/
def someSetup : Redis.StoreSetup := { keyPrefix := "posts:" }

/-- The start of the last microsecond. -/
def lastMicrosecond : Instant := ⟨Instant.lastSecond, 999999000, by decide, by decide⟩

/-- The same change ends well on the file and on the server with a post of 1970, and does not on
those with a post of the last microsecond. -/
theorem update_endsWell_iff_ends_of_time :
    (EndsWell ((fileOf (postOf .epoch)).Tells "u" "p") (· = (fileOf (postOf .epoch)).abandon) "v2"
      .epoch ((Lmdb.store 256).serve (.update "u" "p" "v2" .epoch) (fileOf (postOf .epoch)))) ∧
    ((serverOf someSetup (postOf lastMicrosecond)).queued = [] ∧
      ¬ EndsWell ((serverOf someSetup (postOf lastMicrosecond)).Tells someSetup "u" "p")
        (·.database = (serverOf someSetup (postOf lastMicrosecond)).database) "v2" .epoch
        ((Redis.store someSetup).serve (.update "u" "p" "v2" .epoch)
          (serverOf someSetup (postOf lastMicrosecond)))) := by
  have early : ¬ Instant.epoch.IsLast := by decide
  have last : lastMicrosecond.IsLast := by decide
  refine ⟨?_, rfl, fun well => ?_⟩
  · refine ((update_endsWell_iff "u" "p" "v2" .epoch).1 256 (fileOf (postOf .epoch))).1.2 ?_
    intro post told
    rwa [told.unique (tells_fileOf (by decide))]
  · exact ((update_endsWell_iff "u" "p" "v2" .epoch).2 someSetup
      (serverOf someSetup (postOf lastMicrosecond))
      rfl).1.1 well (postOf lastMicrosecond) (tells_serverOf someSetup (by decide)) last

/-- A change of the post of the last microsecond ends without an answer, in the file and in the
server. -/
theorem update_lastMicrosecond :
    ((Lmdb.store 256).serve (.update "u" "p" "v2" .epoch) (fileOf (postOf lastMicrosecond))).1 =
      .error .noLaterInstant ∧
    ((Redis.store someSetup).serve (.update "u" "p" "v2" .epoch)
      (serverOf someSetup (postOf lastMicrosecond))).1 = .error .noLaterInstant := by
  have last : lastMicrosecond.IsLast := by decide
  constructor
  · have ends := Lmdb.modify_ends "u" "p" "v2" .epoch (fileOf (postOf lastMicrosecond))
    exact (ends.of_not_endsWell fun well =>
      ends.endsWell_iff.1 well (postOf lastMicrosecond) (tells_fileOf (by decide)) last).1
  · have calm : (serverOf someSetup (postOf lastMicrosecond)).queued = [] := rfl
    have ends := Redis.modify_ends calm someSetup "u" "p" "v2" .epoch
    exact (ends.of_not_endsWell fun well =>
      ends.endsWell_iff.1 well (postOf lastMicrosecond) (tells_serverOf someSetup (by decide))
        last).1

/-! ## A lock that was left behind -/

section Locks

variable {σ κ : Type}

/-- Answers of which all after the death of a caller are failures. -/
def shut : List (Σ call : Call, call.Answer κ) → List (Σ call : Call, call.Answer κ)
  | [] => []
  | given :: later =>
    given :: if given.1.dies given.2 then later.map fun lost => ⟨lost.1, lost.1.fail .lockPoisoned⟩
      else shut later

/-- Answers among which no caller died are as they are. -/
theorem shut_eq_self {given : List (Σ call : Call, call.Answer κ)}
    (alive : ∀ answered ∈ given, answered.1.dies answered.2 = false) : shut given = given := by
  induction given with
  | nil => rfl
  | cons answered later ih =>
    rw [shut, alive answered List.mem_cons_self, if_neg Bool.false_ne_true,
      ih fun other member => alive other (List.mem_cons_of_mem answered member)]

/-- Once a caller has died, all calls fail. -/
theorem replies_locked_poisoned (store : Store σ κ) (calls : List Call) (inner s : σ) :
    replies store.locked.reply calls ⟨inner, true⟩ =
      (replies store.reply calls s).map fun lost => ⟨lost.1, lost.1.fail .lockPoisoned⟩ := by
  induction calls generalizing s with
  | nil => rfl
  | cons call calls ih =>
    rw [replies, replies, List.map_cons]
    exact congrArg _ (ih (store.serve call s).2)

/-- **A store behind a lock answers as the store does until a caller dies**, and from then on all
calls fail. -/
theorem replies_locked (store : Store σ κ) (calls : List Call) (s : σ) :
    replies store.locked.reply calls { inner := s } = shut (replies store.reply calls s) := by
  induction calls generalizing s with
  | nil => rfl
  | cons call calls ih =>
    rw [replies, replies, shut]
    refine congrArg _ ?_
    have served : (store.locked.reply call { inner := s }).2 =
        ⟨(store.serve call s).2, call.dies (store.serve call s).1⟩ := rfl
    rw [served, show (store.reply call s).1.1.dies (store.reply call s).1.2 =
      call.dies (store.serve call s).1 from rfl]
    cases call.dies (store.serve call s).1 with
    | true => exact replies_locked_poisoned store calls _ _
    | false => exact ih (store.serve call s).2

/-- As long as no caller dies, the lock cannot be seen. -/
theorem replies_locked_of_alive {store : Store σ κ} {calls : List Call} {s : σ}
    (alive : ∀ given ∈ replies store.reply calls s, given.1.dies given.2 = false) :
    replies store.locked.reply calls { inner := s } = replies store.reply calls s :=
  (replies_locked store calls s).trans (shut_eq_self alive)

/-- In memory a caller dies just if it changes a post that was changed last in the last
microsecond. -/
theorem Memory.dies_iff (call : Call) (memory : Memory) :
    call.dies (Memory.serve call memory).1 = true ↔
      ∃ user id data clock post, call = .update user id data clock ∧
        memory.find? user id = some post ∧ post.updatedAt.IsLast := by
  cases call with
  | create user data fresh => simp [serve, Call.dies]
  | read user id =>
    simp only [serve]
    cases memory.find? user id <;> simp [Call.dies]
  | readAll user => simp [serve, Call.dies]
  | delete user id => simp [serve, Call.dies]
  | update user id data clock =>
    cases found : memory.find? user id with
    | none => simp [serve, found, Call.dies]
    | some post =>
      cases changed : post.withData? data clock with
      | none =>
        have last := Post.withData?_eq_none.1 changed
        simp [serve, found, changed, Call.dies, last]
      | some post' =>
        have early : ¬ post.updatedAt.IsLast := by
          rw [← Post.withData?_eq_none, changed]
          exact Option.some_ne_none post'
        simp [serve, found, changed, Call.dies, early]

end Locks

end PostStore
