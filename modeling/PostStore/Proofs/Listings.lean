import PostStore.Proofs.Iteration
import PostStore.Proofs.Lmdb.Reading
import PostStore.Proofs.Postgres.Paging
import PostStore.Proofs.Redis.Server
import PostStore.Store.Memory
/-!
# The listings of the stores

However its medium answers, a listing of any store is by the contract: a snapshot, and the pages of
the document file, of the key-value server and of the database.  A store's part in it is that it
fetches what the medium answers, and that a page without elements is its last, in every way in which
a fetch can end.
-/

namespace PostStore

/-! ## The ways in which a dialogue can end -/

namespace Dialogue

variable {Q : Type} {R : Q → Type} {α β σ : Type}

/-- Every value in which a dialogue can end has a property, whatever the replies. -/
def Ends (P : α → Prop) : Dialogue Q R α → Prop
  | done value => P value
  | ask _ next => ∀ reply, (next reply).Ends P

theorem Ends.run {P : α → Prop} {d : Dialogue Q R α} (ends : d.Ends P)
    (serve : (question : Q) → σ → R question × σ) (state : σ) : P (d.run serve state).1 := by
  induction d generalizing state with
  | done value => exact ends
  | ask question next ih => exact ih _ (ends _) _

theorem Ends.imp {P P' : α → Prop} {d : Dialogue Q R α} (ends : d.Ends P)
    (weaker : ∀ value, P value → P' value) : d.Ends P' := by
  induction d with
  | done value => exact weaker value ends
  | ask question next ih => exact fun reply => ih reply (ends reply)

/-- Every dialogue ends in a value with a property that all values have. -/
theorem Ends.of_forall {P : α → Prop} (all : ∀ value, P value) (d : Dialogue Q R α) :
    d.Ends P := by
  induction d with
  | done value => exact all value
  | ask question next ih => exact ih

theorem ends_bind {P : β → Prop} (d : Dialogue Q R α) (f : α → Dialogue Q R β) :
    (d.bind f).Ends P ↔ d.Ends fun value => (f value).Ends P := by
  induction d with
  | done value => exact Iff.rfl
  | ask question next ih => exact forall_congr' fun reply => ih reply

/-- A talk goes on unless it has failed. -/
theorem ends_talk_bind {ε : Type} {P : Except ε β → Prop} (talk : ExceptT ε (Dialogue Q R) α)
    (next : α → ExceptT ε (Dialogue Q R) β) :
    (talk >>= next).run.Ends P ↔ talk.run.Ends fun result => match result with
      | .ok value => (next value).run.Ends P
      | .error e => P (.error e) := by
  refine (ends_bind talk.run (ExceptT.bindCont next)).trans (iff_of_eq ?_)
  congr 1
  funext result
  cases result <;> rfl

end Dialogue

/-! ## Stores whose listings keep the contract -/

/-- The listings of a store are cursors that keep the contract, by what the medium answers when
pages are fetched. -/
def Store.ListsByContract {σ μ δ : Type} (store : Store σ (Cursor μ δ))
    (answers : μ → σ → Except (Cursor.Fault δ) (Cursor.Page μ δ) → σ → Prop)
    (decode : δ → Except StoreError Post) : Prop :=
  ∀ user s, ∃ cursor s', store.serve (.readAll user) s = (.ok cursor, s') ∧
    cursor.KeepsContract answers decode store.feed s'

/-! ## Snapshots -/

/-- There is nothing to answer to a snapshot. -/
def Snapshot.Answers {σ : Type} (mark : Empty) (_ : σ)
    (_ : Except (Cursor.Fault Post) (Cursor.Page Empty Post)) (_ : σ) : Prop := mark.elim

/-- A snapshot fetches nothing, and none of its elements fails. -/
theorem Snapshot.productive {σ : Type} :
    Cursor.Productive Except.ok (fun (mark : Empty) (_ : σ) => mark.elim) fun _ => True := by
  constructor
  · exact fun mark => mark.elim
  · intro post e failed
    cases failed

/-- **A snapshot keeps the contract**, whatever posts it was taken of. -/
theorem Snapshot.keepsContract {σ : Type} (posts : List Post) (s : σ) :
    Cursor.KeepsContract Answers .ok feed (ofList posts) s :=
  Cursor.keepsContract (fun mark => mark.elim) Snapshot.productive s (fun _ _ => trivial) rfl rfl

theorem Memory.listsByContract : Memory.store.ListsByContract Snapshot.Answers .ok :=
  fun _ s => ⟨_, s, rfl, Snapshot.keepsContract _ s⟩

/-! ## The document file -/

namespace Lmdb

variable {σ : Type} (serve : (question : Ask) → σ → question.Reply × σ) (settle : σ → σ)

theorem Failure.toStoreError_ne_misuse (failure : Failure) : failure.toStoreError ≠ .misuse := by
  intro same
  cases same

/-- A page of the file with fewer documents than a page can have is the last. -/
theorem Answers.fruitful {mark : Mark} {s s' : σ}
    {result : Except (Cursor.Fault Bytes) (Cursor.Page Mark Bytes)}
    (answers : Answers serve settle mark s result s') (room : 0 < mark.pageSize) :
    Cursor.Fruitful (fun mark => 0 < mark.pageSize) result := by
  cases answers with
  | unbegun | unopened | refused => exact Failure.toStoreError_ne_misuse _
  | last => exact ⟨fun _ => rfl, fun _ more => nomatch more⟩
  | full _ _ finds full =>
    constructor
    · intro empty
      rw [List.map_eq_nil_iff.1 empty, List.length_nil] at full
      exact absurd full (Nat.ne_of_lt room)
    · rintro next ⟨⟩
      exact finds.pageSize ▸ room

theorem decode_ne_misuse {document : Bytes} {e : StoreError} (failed : decode document = .error e) :
    e ≠ .misuse := by
  unfold decode at failed
  split at failed
  · cases failed
  · obtain rfl := Except.error.inj failed
    exact StoreError.noConfusion

/-- **Listings of the document file keep the contract**, whatever the file answers. -/
theorem listsByContract (pageSize : Nat) (bound : Mark → σ → Nat) :
    (storeOver serve settle pageSize bound).ListsByContract (Answers serve settle) decode := by
  refine fun user s => ⟨_, _, rfl, ?_⟩
  have productive : Cursor.Productive decode
      (fun mark => transactWith serve settle (fetchPage mark)) fun mark => 0 < mark.pageSize := by
    constructor
    · exact fun mark s room => (answers_iff.2 rfl).fruitful serve settle room
    · exact fun document e => decode_ne_misuse
  have heeds : Cursor.Heeds (Answers serve settle)
      fun mark => transactWith serve settle (fetchPage mark) := fun _ _ _ _ => Answers.heeded
  apply Cursor.keepsContract heeds productive
  · rintro mark ⟨⟩
    exact Nat.lt_of_lt_of_le Nat.zero_lt_one (Nat.le_max_left 1 pageSize)
  · rfl
  · rfl

end Lmdb

/-! ## The key-value server -/

namespace Redis

variable {σ : Type} (serve : (command : Command) → σ → ReplyTo command × σ)

theorem Problem.toStoreError_ne_misuse (problem : Problem) : problem.toStoreError ≠ .misuse := by
  intro same
  cases same

theorem ends_send_bind {β : Type} {command : Command} {P : Except StoreError β → Prop}
    (next : Reply → Talk β) (failed : ∀ problem : Problem, P (.error problem.toStoreError))
    (goesOn : ∀ reply, (next reply).run.Ends P) : (send command >>= next).run.Ends P := by
  rw [Dialogue.ends_talk_bind]
  intro reply
  show Dialogue.Ends _ (.done (reply.checked.mapError Problem.toStoreError))
  cases reply.checked with
  | error problem => exact failed problem
  | ok reply => exact goesOn reply

theorem ends_understand_bind {α β : Type} {reply : Except Problem α}
    {P : Except StoreError β → Prop} (next : α → Talk β)
    (failed : ∀ problem : Problem, P (.error problem.toStoreError))
    (goesOn : ∀ value, (next value).run.Ends P) : (understand reply >>= next).run.Ends P := by
  rw [Dialogue.ends_talk_bind]
  cases reply with
  | error problem => exact failed problem
  | ok value => exact goesOn value

/-- A scan goes on until it has found a field that has not been seen, or is over. -/
theorem ends_fill (limit : Nat) : ∀ mark : Mark, (fill limit mark).run.Ends fun result =>
    Cursor.Fruitful (fun _ => True)
      (result.mapError fun e => ({ error := e } : Cursor.Fault _)) := by
  induction limit with
  | zero => exact fun mark => ⟨fun _ => rfl, fun _ _ => trivial⟩
  | succ limit ih =>
    intro mark
    refine ends_send_bind _ Problem.toStoreError_ne_misuse fun reply => ?_
    refine ends_understand_bind _ Problem.toStoreError_ne_misuse fun scanned => ?_
    dsimp only
    split
    · exact ⟨fun _ => rfl, fun _ _ => trivial⟩
    · split
      · exact ih _
      · rename_i found
        exact ⟨fun empty => absurd (List.isEmpty_iff.2 empty) found, fun _ _ => trivial⟩

theorem decode_ne_misuse {document : String} {e : StoreError}
    (failed : decode document = .error e) : e ≠ .misuse := by
  unfold decode at failed
  dsimp only at failed
  split at failed
  · cases failed
  · obtain rfl := Except.error.inj failed
    exact StoreError.noConfusion

/-- **Listings of the key-value server keep the contract**, whatever the server replies, when they
may send as many commands as scans take. -/
theorem listsByContract (setup : StoreSetup) {bound : σ → String → Nat}
    (enough : Suffices serve bound) :
    (storeOver serve setup bound).ListsByContract (Answers serve) decode := by
  refine fun user s => ⟨_, _, rfl, ?_⟩
  have productive : Cursor.Productive decode
      (Cursor.atOnce fun (mark : Mark) s => converseWith serve (fill (bound s mark.key) mark) s)
      fun _ => True := by
    constructor
    · exact fun mark s _ => (ends_fill _ mark).run serve s
    · exact fun document e => decode_ne_misuse
  have heeds : Cursor.Heeds (Answers serve)
      (Cursor.atOnce fun (mark : Mark) s =>
        converseWith serve (fill (bound s mark.key) mark) s) := by
    rintro mark s result s' ⟨replies, scanned⟩
    exact scanned.heeded (enough mark s replies result s' scanned)
  apply Cursor.keepsContract heeds productive
  · exact fun _ _ => trivial
  · rfl
  · rfl

end Redis

/-! ## The database -/

namespace Postgres

variable {σ : Type} (serve : (question : Ask) → σ → question.Reply × σ)

/-- The statement that selects the page behind a mark. -/
abbrev Mark.selection (mark : Mark) : Statement :=
  .selectPage mark.user mark.after (limitOf mark.pageSize)

/-- What the database answers when a page is selected. -/
inductive Answers : Mark → σ → Except (Cursor.Fault Row) (Cursor.Page Mark Row) → σ → Prop where
  /-- There is no connection. -/
  | unconnected {mark : Mark} {s s' : σ} {message : String}
      (refused : serve .connect s = (.error message, s')) :
      Answers mark s (.error { error := .backend storeName (connectionReason message) }) s'
  /-- The statement fails. -/
  | refused {mark : Mark} {s s₁ s' : σ} {message : String}
      (connected : serve .connect s = (.ok (), s₁))
      (refused : serve (.execute mark.selection) s₁ = (.error message, s')) :
      Answers mark s (.error { error := .backend storeName message }) s'
  /-- The last row does not tell its identifier. -/
  | untold {mark : Mark} {s s₁ s' : σ} {rows : List Row} {last : Row}
      (connected : serve .connect s = (.ok (), s₁))
      (selected : serve (.execute mark.selection) s₁ = (.ok rows, s'))
      (reached : rows.getLast? = some last) (untold : Column.text? last.id = none) :
      Answers mark s (.error { error := badColumn 1 }) s'
  /-- There are fewer rows than a page can have. -/
  | last {mark : Mark} {s s₁ s' : σ} {rows : List Row}
      (connected : serve .connect s = (.ok (), s₁))
      (selected : serve (.execute mark.selection) s₁ = (.ok rows, s'))
      (told : ∀ last ∈ rows.getLast?, Column.text? last.id ≠ none)
      (short : rows.length < mark.pageSize) :
      Answers mark s (.ok (rows, none)) s'
  /-- There are as many rows as a page can have, or more. -/
  | full {mark : Mark} {s s₁ s' : σ} {rows : List Row} {last : Row} {after : String}
      (connected : serve .connect s = (.ok (), s₁))
      (selected : serve (.execute mark.selection) s₁ = (.ok rows, s'))
      (reached : rows.getLast? = some last) (told : Column.text? last.id = some after)
      (full : mark.pageSize ≤ rows.length) :
      Answers mark s (.ok (rows, some { mark with after := after })) s'

section Fetching

variable {serve} {mark : Mark} {s s₁ s' : σ} {rows : List Row}

/-- What is left of the fetching of a page when its rows are there. -/
theorem converse_selected (connected : serve .connect s = (.ok (), s₁))
    (selected : serve (.execute mark.selection) s₁ = (.ok rows, s')) :
    converseWith serve (fetchPage mark) s = (match rows.getLast? with
      | none => .ok (rows, if rows.length < mark.pageSize then none else some mark)
      | some last =>
        match Column.text? last.id with
        | none => .error (badColumn 1)
        | some after =>
          .ok (rows,
            if rows.length < mark.pageSize then none else some { mark with after := after }),
      s') := by
  rw [converseWith, fetchPage, run_execute_bind, Dialogue.run, connected]
  simp only [Dialogue.run, selected]
  cases rows.getLast? with
  | none => rfl
  | some last =>
    simp only
    cases Column.text? last.id <;> rfl

/-- A page is fetched as the database answers. -/
theorem Answers.heeded {result : Except (Cursor.Fault Row) (Cursor.Page Mark Row)}
    (answers : Answers serve mark s result s') :
    Cursor.atOnce (fun mark => converseWith serve (fetchPage mark)) mark s = (result, s') := by
  cases answers with
  | unconnected refused =>
    refine Cursor.atOnce_of_error ?_
    rw [converseWith, fetchPage, run_execute_bind, Dialogue.run, refused]
    rfl
  | refused connected refused =>
    refine Cursor.atOnce_of_error ?_
    rw [converseWith, fetchPage, run_execute_bind, Dialogue.run, connected]
    simp only [Dialogue.run, refused]
  | untold connected selected reached untold =>
    refine Cursor.atOnce_of_error ?_
    rw [converse_selected connected selected, reached]
    simp only [untold]
  | @last _ _ rows connected selected told short =>
    rw [Cursor.atOnce_eq_ok, converse_selected connected selected, if_pos short]
    cases reached : rows.getLast? with
    | none => rfl
    | some last =>
      obtain ⟨after, read⟩ := Option.ne_none_iff_exists'.1 (told last reached)
      simp only [read, if_pos short]
  | full connected selected reached told full =>
    rw [Cursor.atOnce_eq_ok, converse_selected connected selected, reached]
    simp only [told, if_neg (Nat.not_lt.2 full)]

/-- Whatever the database does, it answers. -/
theorem exists_answers (serve : (question : Ask) → σ → question.Reply × σ)
    (room : 0 < mark.pageSize) (s : σ) : ∃ result s', Answers serve mark s result s' := by
  rcases connected : serve .connect s with ⟨message | _, s₁⟩
  · exact ⟨_, _, .unconnected connected⟩
  rcases selected : serve (.execute mark.selection) s₁ with ⟨message | rows, s'⟩
  · exact ⟨_, _, .refused connected selected⟩
  cases reached : rows.getLast? with
  | none =>
    obtain rfl := List.getLast?_eq_none_iff.1 reached
    exact ⟨_, _, .last connected selected (fun last there => nomatch there) room⟩
  | some last =>
    cases told : Column.text? last.id with
    | none => exact ⟨_, _, .untold connected selected reached told⟩
    | some after =>
      rcases Nat.lt_or_ge rows.length mark.pageSize with short | full
      · refine ⟨_, _, .last connected selected ?_ short⟩
        rintro last there
        obtain rfl := Option.some.inj (reached.symm.trans there)
        exact told ▸ Option.some_ne_none after
      · exact ⟨_, _, .full connected selected reached told full⟩

end Fetching

/-- A page of the database with fewer rows than a page can have is the last. -/
theorem Answers.fruitful {mark : Mark} {s s' : σ}
    {result : Except (Cursor.Fault Row) (Cursor.Page Mark Row)}
    (answers : Answers serve mark s result s') (room : 0 < mark.pageSize) :
    Cursor.Fruitful (fun mark => 0 < mark.pageSize) result := by
  cases answers with
  | unconnected | refused | untold => exact StoreError.noConfusion
  | last => exact ⟨fun _ => rfl, fun _ more => nomatch more⟩
  | full connected selected reached told full =>
    constructor
    · rintro rfl
      cases reached
    · rintro next ⟨⟩
      exact room

theorem decode_ne_misuse {row : Row} {e : StoreError} (failed : decode row = .error e) :
    e ≠ .misuse := by
  unfold decode at failed
  cases read : row.toPost with
  | ok post => rw [read] at failed; cases failed
  | error column =>
    rw [read] at failed
    obtain rfl := Except.error.inj failed
    exact StoreError.noConfusion

/-- **Listings of the database keep the contract**, whatever the database answers. -/
theorem listsByContract (pageSize : Nat) (bound : Mark → σ → Nat) :
    (storeOver serve pageSize bound).ListsByContract (Answers serve) decode := by
  refine fun user s => ⟨_, _, rfl, ?_⟩
  have heeds : Cursor.Heeds (Answers serve)
      (Cursor.atOnce fun mark => converseWith serve (fetchPage mark)) :=
    fun _ _ _ _ => Answers.heeded
  have productive : Cursor.Productive decode
      (Cursor.atOnce fun mark => converseWith serve (fetchPage mark))
      fun mark => 0 < mark.pageSize := by
    constructor
    · intro mark s room
      obtain ⟨result, s', answers⟩ := exists_answers serve room s
      rw [answers.heeded]
      exact answers.fruitful serve room
    · exact fun row e => decode_ne_misuse
  apply Cursor.keepsContract heeds productive
  · rintro mark ⟨⟩
    exact Nat.lt_of_lt_of_le Nat.zero_lt_one (Nat.le_max_left 1 pageSize)
  · rfl
  · rfl

end Postgres

/-! ## All listings -/

/-- **Every listing keeps the contract**: a snapshot of any posts, in particular one of the store in
memory; and the listings of the document file, of the key-value server and of the database, whatever
is answered to their questions, as long as a fetch may send as many commands as a scan takes. -/
theorem every_listing_by_contract {σ τ υ : Type}
    (file : (question : Lmdb.Ask) → σ → question.Reply × σ) (settle : σ → σ)
    (hashes : (command : Redis.Command) → τ → Redis.ReplyTo command × τ)
    (table : (question : Postgres.Ask) → υ → question.Reply × υ) (pageSize : Nat)
    (setup : Redis.StoreSetup) (documents : Lmdb.Mark → σ → Nat) (fields : τ → String → Nat)
    (rows : Postgres.Mark → υ → Nat) (enough : Redis.Suffices hashes fields) :
    (∀ (posts : List Post) (s : σ),
        Cursor.KeepsContract Snapshot.Answers .ok Snapshot.feed (Snapshot.ofList posts) s) ∧
      Memory.store.ListsByContract Snapshot.Answers .ok ∧
      (Lmdb.storeOver file settle pageSize documents).ListsByContract (Lmdb.Answers file settle)
        Lmdb.decode ∧
      (Redis.storeOver hashes setup fields).ListsByContract (Redis.Answers hashes) Redis.decode ∧
      (Postgres.storeOver table pageSize rows).ListsByContract (Postgres.Answers table)
        Postgres.decode := by
  refine ⟨?_, ?_, ?_, ?_, ?_⟩
  · exact Snapshot.keepsContract
  · exact Memory.listsByContract
  · exact Lmdb.listsByContract file settle pageSize documents
  · exact Redis.listsByContract hashes setup enough
  · exact Postgres.listsByContract table pageSize rows

/-- Over the plain media.  A page of the plain key-value server is what the server answers, whatever
replies wait. -/
theorem every_listing_by_contract_plain :
    Redis.Suffices Redis.Server.serve Redis.Server.scanBound ∧
      (∀ mark server, 0 < mark.count → ∀ page final,
        Redis.Answers Redis.Server.serve mark server page final ↔
          Redis.fetchPlain mark server = (page, final)) ∧
      (Lmdb.store 2).ListsByContract
        (Lmdb.Answers Lmdb.Environment.serve Lmdb.Environment.abandon) Lmdb.decode ∧
      (Redis.store { keyPrefix := "posts:" }).ListsByContract (Redis.Answers Redis.Server.serve)
        Redis.decode ∧
      (Postgres.store 2).ListsByContract (Postgres.Answers Postgres.Server.serve)
        Postgres.decode := by
  have enough := Redis.Server.scanBound_suffices
  obtain ⟨-, -, file, hashes, table⟩ := every_listing_by_contract Lmdb.Environment.serve
    Lmdb.Environment.abandon Redis.Server.serve Postgres.Server.serve 2 { keyPrefix := "posts:" }
    (fun _ env => env.entries.length) Redis.Server.scanBound (fun _ server => server.rowsLeft)
    enough
  exact ⟨enough, fun _ _ positive _ _ => Redis.Server.answers_iff positive, file, hashes, table⟩

end PostStore
