import PostStore.Proofs.Listings
import PostStore.Proofs.Lmdb.Transactions
/-!
# All or nothing

Any question to the document file may be refused, at any point of a transaction, and leave any
draft behind.  Whatever the entries are, only a commit that is answered changes them, and it is the
last question of its transaction: a call that fails leaves every entry as it was, and a call that
succeeds changes at most the one entry that it is about.
-/

namespace PostStore.Lmdb

/-! ## One entry -/

namespace Entries

/-- Filing a value under a key leaves the entries under all others as they are. -/
theorem erase_insert (key value : Bytes) (entries : Entries) :
    (entries.insert key value).erase key = entries.erase key := by
  induction entries with
  | nil => simp [insert, erase]
  | cons first rest ih =>
    obtain ⟨k, v⟩ := first
    rw [insert]
    split
    · simp [erase]
    · split
      · rename_i here
        simp [erase, here]
      · rename_i other
        simp only [erase, List.filter_cons] at ih ⊢
        rw [ih]

theorem erase_erase (key : Bytes) (entries : Entries) :
    (entries.erase key).erase key = entries.erase key := by
  simp [erase]

/-- A value that has been filed is found. -/
theorem get?_insert (key value : Bytes) (entries : Entries) :
    (entries.insert key value).get? key = some value := by
  induction entries with
  | nil => simp [insert, get?]
  | cons first rest ih =>
    obtain ⟨k, v⟩ := first
    rw [insert]
    split
    · simp [get?]
    · split
      · simp [get?]
      · rename_i other
        rw [get?, if_neg other, ih]

theorem get?_erase (key : Bytes) (entries : Entries) : (entries.erase key).get? key = none := by
  induction entries with
  | nil => rfl
  | cons first rest ih =>
    obtain ⟨k, v⟩ := first
    by_cases here : k = key
    · simpa [erase, here] using ih
    · simpa [erase, get?, here] using ih

/-- Under other keys a lookup finds what it found before. -/
theorem get?_erase_of_ne {key other : Bytes} (different : key ≠ other) (entries : Entries) :
    (entries.erase key).get? other = entries.get? other := by
  induction entries with
  | nil => rfl
  | cons first rest ih =>
    obtain ⟨k, v⟩ := first
    by_cases here : k = key
    · have elsewhere : k ≠ other := here ▸ different
      simpa [erase, get?, here, elsewhere, different] using ih
    · simp only [erase, ne_eq, here, not_false_eq_true, decide_true, List.filter_cons_of_pos, get?]
      split
      · rfl
      · exact ih

/-- Entries differ from others under one key at most, and have a given document there, or none. -/
def Replaced (key : Bytes) (document : Option Bytes) (before after : Entries) : Prop :=
  after.erase key = before.erase key ∧ after.get? key = document

theorem replaced_insert (key document : Bytes) (entries : Entries) :
    Replaced key (some document) entries (entries.insert key document) :=
  ⟨erase_insert key document entries, get?_insert key document entries⟩

theorem replaced_erase (key : Bytes) (entries : Entries) :
    Replaced key none entries (entries.erase key) :=
  ⟨erase_erase key entries, get?_erase key entries⟩

theorem Replaced.get? {key : Bytes} {document : Option Bytes} {before after : Entries}
    (replaced : Replaced key document before after) {other : Bytes} (different : key ≠ other) :
    after.get? other = before.get? other := by
  rw [← get?_erase_of_ne different after, replaced.1, get?_erase_of_ne different]

end Entries

/-! ## A file that may refuse -/

/-- A refusal, and the draft that it leaves behind. -/
structure Mishap where
  failure : Failure
  draft : Option Entries

/-- A file with what happens to the questions to come. -/
structure Exposed where
  env : Environment
  forecast : Nat → Option Mishap

namespace Exposed

/-- Serves a question, unless a refusal comes next. -/
def serve (question : Ask) (exposed : Exposed) : question.Reply × Exposed :=
  match exposed.forecast 0 with
  | none =>
    ((Environment.serve question exposed.env).1,
      ⟨(Environment.serve question exposed.env).2, fun n => exposed.forecast (n + 1)⟩)
  | some mishap =>
    (.error mishap.failure,
      ⟨{ exposed.env with draft := mishap.draft }, fun n => exposed.forecast (n + 1)⟩)

/-- Forgets the draft. -/
def abandon (exposed : Exposed) : Exposed := { exposed with env := exposed.env.abandon }

/-- The entries that are committed. -/
def entries (exposed : Exposed) : Entries := exposed.env.entries

end Exposed

/-- The store over a file that may refuse. -/
def exposedStore (pageSize : Nat) : Store Exposed Pages :=
  storeOver Exposed.serve Exposed.abandon pageSize fun _ exposed => exposed.entries.length

/-- Where nothing is refused from outside, a transaction runs as over the plain file. -/
theorem transactWith_calm {ε α : Type} (talk : ExceptT ε (Dialogue Ask Ask.Reply) α)
    (env : Environment) :
    transactWith Exposed.serve Exposed.abandon talk ⟨env, fun _ => none⟩ =
      ((transact talk env).1, ⟨(transact talk env).2, fun _ => none⟩) := by
  have run_calm (d : Dialogue Ask Ask.Reply (Except ε α)) :
      ∀ env, d.run Exposed.serve ⟨env, fun _ => none⟩ =
        ((d.run Environment.serve env).1, ⟨(d.run Environment.serve env).2, fun _ => none⟩) := by
    induction d with
    | done value => exact fun _ => rfl
    | ask question next ih => exact fun env => ih _ _
  rw [transactWith, run_calm talk.run env]
  rfl

/-! ## One question -/

section Questions

variable {question : Ask}

/-- Only a commit changes the entries. -/
theorem Environment.entries_serve (other : question ≠ .commit) (env : Environment) :
    (Environment.serve question env).2.entries = env.entries := by
  cases question with
  | beginRead =>
    rw [Environment.serve]
    split <;> rfl
  | put key value =>
    rw [Environment.serve]
    split <;> rfl
  | commit => exact absurd rfl other
  | beginWrite | get | erase | openRange | seek => rfl

/-- The file itself changes nothing of the entries when it refuses. -/
theorem Environment.entries_of_refused {env env' : Environment} {failure : Failure}
    (refused : Environment.serve question env = (.error failure, env')) :
    env'.entries = env.entries := by
  by_cases commits : question = .commit
  · subst commits
    cases refused
  · have kept := Environment.entries_serve commits env
    rwa [refused] at kept

/-- A question is refused, and the entries are as they were; or the file answers it. -/
theorem Exposed.serve_cases (question : Ask) (exposed : Exposed) :
    (∃ failure after, exposed.serve question = (.error failure, after) ∧
      after.entries = exposed.entries) ∨
    ∃ result env forecast, Environment.serve question exposed.env = (.ok result, env) ∧
      exposed.serve question = (.ok result, ⟨env, forecast⟩) := by
  cases coming : exposed.forecast 0 with
  | some mishap =>
    have refused : exposed.serve question = (.error mishap.failure,
        ⟨{ exposed.env with draft := mishap.draft }, fun n => exposed.forecast (n + 1)⟩) := by
      rw [Exposed.serve, coming]
    exact .inl ⟨mishap.failure, _, refused, rfl⟩
  | none =>
    have same : exposed.serve question = ((Environment.serve question exposed.env).1,
        ⟨(Environment.serve question exposed.env).2, fun n => exposed.forecast (n + 1)⟩) := by
      rw [Exposed.serve, coming]
    rw [same]
    cases served : Environment.serve question exposed.env with
    | mk reply env =>
      cases reply with
      | error failure => exact .inl ⟨failure, _, rfl, Environment.entries_of_refused served⟩
      | ok result => exact .inr ⟨result, env, _, rfl, rfl⟩

end Questions

/-! ## Transactions -/

section Transactions

variable {exposed : Exposed} {before : Entries} {ε α : Type} {left : α → Entries → Prop}

/-- A transaction ends with the entries as they were before it when it has failed, and with entries
that go with its value when it has not. -/
def Leaves (before : Entries) (left : α → Entries → Prop)
    (ended : Except ε α × Exposed) : Prop :=
  match ended with
  | (.error _, exposed) => exposed.entries = before
  | (.ok value, exposed) => left value exposed.entries

/-- The run of what is left of a transaction. -/
def Exposed.run (talk : ExceptT ε (Dialogue Ask Ask.Reply) α) (exposed : Exposed) :
    Except ε α × Exposed :=
  Dialogue.run Exposed.serve (ExceptT.run talk) exposed

/-- A transaction ends at a question that is refused, and goes on behind one that is answered. -/
theorem Exposed.run_bind {question : Ask} (fault : Failure → ε)
    (next : question.Result → ExceptT ε (Dialogue Ask Ask.Reply) α) (exposed : Exposed) :
    (∃ e after, exposed.run (callAs fault question >>= next) = (.error e, after) ∧
      after.entries = exposed.entries) ∨
    ∃ result env forecast, Environment.serve question exposed.env = (.ok result, env) ∧
      exposed.run (callAs fault question >>= next) = Exposed.run (next result) ⟨env, forecast⟩ := by
  have served : exposed.run (callAs fault question >>= next) =
      Dialogue.run Exposed.serve
        (ExceptT.bindCont next ((exposed.serve question).1.mapError fault))
        (exposed.serve question).2 := rfl
  rw [served]
  rcases Exposed.serve_cases question exposed with
    ⟨failure, after, refused, kept⟩ | ⟨result, env, forecast, answered, same⟩
  · rw [refused]
    exact .inl ⟨fault failure, after, rfl, kept⟩
  · rw [same]
    exact .inr ⟨result, env, forecast, answered, rfl⟩

/-- After a question that is no commit, refused or not, the entries are as before, and what is left
of the transaction decides. -/
theorem leaves_bind {question : Ask} {fault : Failure → ε}
    {next : question.Result → ExceptT ε (Dialogue Ask Ask.Reply) α}
    (other : question ≠ .commit) (begun : exposed.entries = before)
    (onward : ∀ result env forecast, Environment.serve question exposed.env = (.ok result, env) →
      env.entries = before → Leaves before left (Exposed.run (next result) ⟨env, forecast⟩)) :
    Leaves before left (exposed.run (callAs fault question >>= next)) := by
  rcases Exposed.run_bind fault next exposed with
    ⟨e, after, ended, kept⟩ | ⟨result, env, forecast, answered, same⟩
  · rw [ended]
    exact kept.trans begun
  · rw [same]
    have kept := Environment.entries_serve other exposed.env
    rw [answered] at kept
    exact onward result env forecast answered (kept.trans begun)

/-- A commit that is refused leaves the entries as they were, and one that is answered leaves what
has been drafted. -/
theorem leaves_commit (value : α) (begun : exposed.entries = before)
    (drafted : left value exposed.env.working) :
    Leaves before left (exposed.run (do call .commit; return value)) := by
  rcases Exposed.run_bind Failure.toStoreError
      (fun _ : Ask.commit.Result => (return value : Talk α)) exposed with
    ⟨e, after, ended, kept⟩ | ⟨result, env, forecast, answered, same⟩
  · rw [ended]
    exact kept.trans begun
  · rw [same]
    obtain rfl : { exposed.env with entries := exposed.env.working, draft := none } = env :=
      congrArg Prod.snd answered
    exact drafted

/-- So does a commit that is the last thing said. -/
theorem run_commit (exposed : Exposed) :
    exposed.run (call .commit) = exposed.run (do call .commit; return ()) := by
  show (((exposed.serve .commit).1.mapError Failure.toStoreError), (exposed.serve .commit).2) =
    Dialogue.run Exposed.serve (ExceptT.bindCont (fun _ => pure ())
      ((exposed.serve .commit).1.mapError Failure.toStoreError)) (exposed.serve .commit).2
  cases (exposed.serve .commit).1 <;> rfl

/-- A document is filed in an open draft and committed, or the entries are as they were. -/
theorem leaves_put {key document : Bytes} (value : α) (begun : exposed.entries = before)
    (opened : exposed.env.draft = some before)
    (filed : left value (before.insert key document)) :
    Leaves before left (exposed.run (put key document value)) := by
  refine leaves_bind Ask.noConfusion begun fun _ env forecast served kept => ?_
  refine leaves_commit value kept ?_
  have working : exposed.env.working = before := by
    rw [Environment.working, opened, Option.getD_some]
  rw [Environment.serve, working] at served
  split at served
  · cases served
  · obtain rfl := congrArg Prod.snd served
    exact filed

/-- A transaction that ends without asking any more has committed nothing. -/
theorem leaves_done (ended : Except StoreError α) (begun : exposed.entries = before) :
    Leaves before (fun _ after => after = before) (exposed.run (ExceptT.mk (.done ended))) := by
  cases ended <;> exact begun

/-- A new post is filed under its key, or nothing is. -/
theorem leaves_insert (post : Post) (begun : exposed.entries = before) :
    Leaves before
      (fun given => Entries.Replaced (postKey post.user post.id) (some given.toDocument) before)
      (exposed.run (insert post)) := by
  refine leaves_bind Ask.noConfusion begun fun _ env forecast served kept => ?_
  obtain rfl := congrArg Prod.snd served
  exact leaves_put post kept (congrArg some begun) (Entries.replaced_insert _ _ before)

theorem leaves_find (user id : String) (begun : exposed.entries = before) :
    Leaves before (fun _ after => after = before) (exposed.run (find user id)) := by
  refine leaves_bind Ask.noConfusion begun fun _ env forecast _ kept => ?_
  refine leaves_bind Ask.noConfusion kept fun found env forecast _ kept => ?_
  cases found with
  | none => exact kept
  | some document => exact leaves_done (decode document) kept

/-- The post that is changed is filed under the key under which it was found, whatever it calls
itself; or nothing is. -/
theorem leaves_modify (user id data : String) (clock : ClockReading)
    (begun : exposed.entries = before) :
    Leaves before
      (fun changed => Entries.Replaced (postKey user id) (some changed.toDocument) before)
      (exposed.run (modify user id data clock)) := by
  refine leaves_bind Ask.noConfusion begun fun _ env forecast served kept => ?_
  obtain rfl := congrArg Prod.snd served
  have opened : some exposed.env.entries = some before := congrArg some begun
  refine leaves_bind Ask.noConfusion kept fun found env forecast served kept => ?_
  obtain rfl := congrArg Prod.snd served
  cases found with
  | none => exact kept
  | some document =>
    simp only
    cases decode document with
    | error e => exact kept
    | ok post =>
      simp only
      cases post.withData? data clock with
      | none => exact kept
      | some changed => exact leaves_put changed kept opened (Entries.replaced_insert _ _ before)

theorem leaves_remove (user id : String) (begun : exposed.entries = before) :
    Leaves before (fun _ => Entries.Replaced (postKey user id) none before)
      (exposed.run (remove user id)) := by
  refine leaves_bind Ask.noConfusion begun fun _ env forecast served kept => ?_
  obtain rfl := congrArg Prod.snd served
  refine leaves_bind Ask.noConfusion kept fun _ env forecast served kept => ?_
  obtain rfl := congrArg Prod.snd served
  rw [run_commit]
  refine leaves_commit () kept ?_
  subst begun
  exact Entries.replaced_erase (postKey user id) exposed.entries

/-- Reading on changes nothing, wherever it ends. -/
theorem leaves_readOn (room : Nat) : ∀ {exposed : Exposed} (got : List Bytes) (mark : Mark),
    exposed.entries = before →
      Leaves before (fun _ after => after = before) (exposed.run (readOn got room mark)) := by
  induction room with
  | zero => exact fun got mark begun => begun
  | succ room ih =>
    intro exposed got mark begun
    refine leaves_bind Ask.noConfusion begun fun found env forecast _ kept => ?_
    cases found with
    | none => exact kept
    | some entry =>
      simp only
      split
      · exact ih _ _ kept
      · exact kept

theorem leaves_fetchPage (mark : Mark) (begun : exposed.entries = before) :
    Leaves before (fun _ after => after = before) (exposed.run (fetchPage mark)) := by
  refine leaves_bind Ask.noConfusion begun fun _ env forecast _ kept => ?_
  exact leaves_bind Ask.noConfusion kept fun _ env forecast _ kept =>
    leaves_readOn mark.pageSize [] mark kept

end Transactions

/-! ## Calls -/

/-- The key of the one entry that a call may change. -/
def entryKey? : Call → Option Bytes
  | .create user _ fresh => some (postKey user fresh.id)
  | .update user id .. => some (postKey user id)
  | .delete user id => some (postKey user id)
  | .read .. => none
  | .readAll _ => none

/-- The document that is under that key after a call has given a result. -/
def leftDocument? : (call : Call) → call.Result Pages → Option Bytes
  | .create .., post => some post.toDocument
  | .update .., post => some post.toDocument
  | .read .., _ => none
  | .readAll _, _ => none
  | .delete .., _ => none

/-- What a call that gives a result may have done to the entries. -/
def Effect (call : Call) (before : Entries) (result : call.Result Pages) (after : Entries) : Prop :=
  match entryKey? call with
  | some key => Entries.Replaced key (leftDocument? call result) before after
  | none => after = before

/-- What a call does to the entries it does to none but its own. -/
theorem Effect.get? {call : Call} {before after : Entries} {result : call.Result Pages}
    (effect : Effect call before result after) {key : Bytes} (other : entryKey? call ≠ some key) :
    after.get? key = before.get? key := by
  unfold Effect at effect
  split at effect
  · rename_i about
    exact effect.get? fun same => other (about.trans (congrArg some same))
  · rw [effect]

/-- What is forgotten at the end of a transaction is no part of what it leaves. -/
theorem leaves_transact {ε α : Type} {left : α → Entries → Prop}
    {talk : ExceptT ε (Dialogue Ask Ask.Reply) α} {before : Entries} {exposed : Exposed}
    (leaves : Leaves before left (exposed.run talk)) :
    Leaves before left (transactWith Exposed.serve Exposed.abandon talk exposed) := by
  show Leaves before left ((exposed.run talk).1, (exposed.run talk).2.abandon)
  cases ended : exposed.run talk with
  | mk result after =>
    rw [ended] at leaves
    cases result <;> exact leaves

/-- A call that fails leaves the entries as they were; one that succeeds does to them what it is to
do. -/
theorem leaves_call (pageSize : Nat) (call : Call) (exposed : Exposed) :
    Leaves exposed.entries (Effect call exposed.entries)
      ((exposedStore pageSize).serve call exposed) := by
  refine leaves_transact ?_
  cases call with
  | create user data fresh => exact leaves_insert (Post.make user data fresh) rfl
  | read user id => exact leaves_find user id rfl
  | readAll user => exact rfl
  | update user id data clock => exact leaves_modify user id data clock rfl
  | delete user id => exact leaves_remove user id rfl

/-- Nothing that a listing is asked changes the entries. -/
theorem entries_feed (pageSize : Nat) (question : FeedAsk) (cursor : Pages) (exposed : Exposed) :
    ((exposedStore pageSize).feed.serve question (cursor, exposed)).2.2.entries =
      exposed.entries := by
  cases question with
  | get => rfl
  | close => rfl
  | next =>
    refine Cursor.next_keeps (fun after : Exposed => after.entries = exposed.entries)
      (fun mark before result after same fetched => ?_) cursor rfl
    have leaves := leaves_transact (leaves_fetchPage mark (rfl : before.entries = before.entries))
    rw [fetched] at leaves
    cases result with
    | error e => exact leaves.trans same
    | ok page => exact leaves.trans same

/-- **Calls of the document file are all or nothing, and about one entry**: whatever the entries
are and whatever is refused, a call that fails leaves them as they were, one that creates, changes
or removes a post leaves all entries but that under the post's key, and lookups and listings leave
all of them. -/
theorem call_all_or_nothing (pageSize : Nat) (exposed : Exposed) :
    (∀ call, Leaves exposed.entries (Effect call exposed.entries)
      ((exposedStore pageSize).serve call exposed)) ∧
    ∀ question cursor, ((exposedStore pageSize).feed.serve question (cursor, exposed)).2.2.entries =
      exposed.entries :=
  ⟨fun call => leaves_call pageSize call exposed, fun question cursor =>
    entries_feed pageSize question cursor exposed⟩

/-- A run of calls leaves the document under every key that none of them is about. -/
theorem get?_after (pageSize : Nat) {key : Bytes} {calls : List Call}
    (elsewhere : ∀ call ∈ calls, entryKey? call ≠ some key) (exposed : Exposed) :
    ((exposedStore pageSize).after calls exposed).entries.get? key = exposed.entries.get? key := by
  let keep (after : Exposed) : Prop := after.entries.get? key = exposed.entries.get? key
  refine Store.after_keeps keep ?_ calls elsewhere rfl
  intro call before other same
  have leaves := leaves_call pageSize call before
  cases served : (exposedStore pageSize).serve call before with
  | mk answer after =>
    rw [served] at leaves
    cases answer with
    | error e => exact (congrArg (Entries.get? key) leaves).trans same
    | ok result => exact (Effect.get? leaves other).trans same

end PostStore.Lmdb
