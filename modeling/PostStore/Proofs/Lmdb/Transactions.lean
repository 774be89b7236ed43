import PostStore.Proofs.Lmdb.Holdings
import PostStore.Proofs.Lmdb.Reading
/-!
# Transactions of the document file

What each transaction gives and leaves behind when no draft is open: filing fails when the document
does not fit, lookups and pages fail while the reader slot is held, and a transaction that fails
leaves the file as it was.
-/

namespace PostStore.Lmdb

/-! ## Questions one after the other -/

section Talks

variable {α : Type} {question : Ask} {env env' : Environment}

/-- The run of what is left of a transaction. -/
def run (talk : Talk α) (env : Environment) : Except StoreError α × Environment :=
  Dialogue.run Environment.serve (ExceptT.run talk) env

theorem transact_eq (talk : Talk α) (env : Environment) :
    transact talk env = ((run talk env).1, (run talk env).2.abandon) := rfl

/-- After a question that is answered the transaction goes on. -/
theorem run_bind_ok {result : question.Result} (next : question.Result → Talk α)
    (served : Environment.serve question env = (.ok result, env')) :
    run (call question >>= next) env = run (next result) env' := by
  show Dialogue.run Environment.serve (.ask question _) env = _
  rw [Dialogue.run, served]
  rfl

/-- A question that is refused ends the transaction. -/
theorem run_bind_error {failure : Failure} (next : question.Result → Talk α)
    (served : Environment.serve question env = (.error failure, env')) :
    run (call question >>= next) env = (.error failure.toStoreError, env') := by
  show Dialogue.run Environment.serve (.ask question _) env = _
  rw [Dialogue.run, served]
  rfl

end Talks

/-! ## Changes -/

/-- The file at rest with other entries. -/
def Environment.restock (env : Environment) (entries : Entries) : Environment :=
  { env with entries := entries, draft := none }

/-- Files a document in an open draft, ends the transaction and gives a value. -/
def put {α : Type} (key document : Bytes) (value : α) : Talk α := do
  call (.put key document)
  call .commit
  return value

section Changes

variable {env : Environment}

theorem run_put {α : Type} (key document : Bytes) (value : α) {draft : Entries}
    (opened : env.draft = some draft) :
    run (put key document value) env =
      if env.capacity < draft.size + document.length then (.error Failure.mapFull.toStoreError, env)
      else (.ok value, env.restock (draft.insert key document)) := by
  have working : env.working = draft := by rw [Environment.working, opened, Option.getD_some]
  rw [put]
  split
  · rename_i full
    have refused : Environment.serve (.put key document) env = (.error .mapFull, env) := by
      simp only [Environment.serve, working, if_pos full]
    exact run_bind_error _ refused
  · rename_i room
    have filed : Environment.serve (.put key document) env =
        (.ok (), { env with draft := some (draft.insert key document) }) := by
      simp only [Environment.serve, working, if_neg room]
    rw [run_bind_ok _ filed, run_bind_ok _ rfl]
    rfl

/-- Nothing is left of a draft that is not there. -/
theorem abandon_of_settled (settled : env.draft = none) : env.abandon = env := by
  cases env
  cases settled
  rfl

/-- A new post is filed under its key, if there is room for its document. -/
theorem transact_insert (settled : env.draft = none) (post : Post) :
    transact (insert post) env =
      if env.capacity < env.entries.size + post.toDocument.length then
        (.error Failure.mapFull.toStoreError, env)
      else
        (.ok post, env.restock
          (env.entries.insert (postKey post.user post.id) post.toDocument)) := by
  have opened : run (insert post) env =
      run (put (postKey post.user post.id) post.toDocument post)
        { env with draft := some env.entries } := run_bind_ok _ rfl
  rw [transact_eq, opened, run_put _ _ _ rfl]
  split
  · exact congrArg (_, ·) (abandon_of_settled settled)
  · rfl

/-- The text of a post that is found is changed, if it can be and there is room for the document. -/
theorem transact_modify (settled : env.draft = none) (user id data : String)
    (clock : ClockReading) :
    transact (modify user id data clock) env =
      match (env.entries.get? (postKey user id)).map decode with
      | none => (.error (.notFound user id), env)
      | some (.error e) => (.error e, env)
      | some (.ok post) =>
        match post.withData? data clock with
        | none => (.error .noLaterInstant, env)
        | some changed =>
          if env.capacity < env.entries.size + changed.toDocument.length then
            (.error Failure.mapFull.toStoreError, env)
          else
            (.ok changed, env.restock
              (env.entries.insert (postKey user id) changed.toDocument)) := by
  have forget : ({ env with draft := some env.entries } : Environment).abandon = env :=
    abandon_of_settled settled
  rw [transact_eq, modify, run_bind_ok _ rfl, run_bind_ok _ rfl]
  simp only [Environment.working, Option.getD_some]
  cases env.entries.get? (postKey user id) with
  | none => exact congrArg (_, ·) forget
  | some document =>
    simp only [Option.map_some]
    cases decode document with
    | error e => exact congrArg (_, ·) forget
    | ok post =>
      simp only
      cases post.withData? data clock with
      | none => exact congrArg (_, ·) forget
      | some changed =>
        have filed := run_put (postKey user id) changed.toDocument changed
          (rfl : ({ env with draft := some env.entries } : Environment).draft = some env.entries)
        rw [put] at filed
        simp only [filed]
        split
        · exact congrArg (_, ·) forget
        · rfl

/-- What is under the key of a post is dropped, if there is anything. -/
theorem transact_remove (user id : String) :
    transact (remove user id) env =
      (.ok (), env.restock (env.entries.erase (postKey user id))) := by
  rw [transact_eq, remove, run_bind_ok _ rfl, run_bind_ok _ rfl]
  rfl

end Changes

/-! ## Lookups -/

section Lookups

variable {env : Environment}

/-- No reading transaction begins while the reader slot is held. -/
theorem serve_beginRead_of_held (held : env.readerHeld = true) :
    Environment.serve .beginRead env = (.error .badReaderSlot, env) := by
  simp only [Environment.serve, if_pos held]

/-- One that begins changes nothing. -/
theorem serve_beginRead_of_free (settled : env.draft = none) (free : ¬ env.readerHeld = true) :
    Environment.serve .beginRead env = (.ok (), env) := by
  simp only [Environment.serve, if_neg free, abandon_of_settled settled]

theorem working_of_settled (settled : env.draft = none) : env.working = env.entries := by
  rw [Environment.working, settled, Option.getD_none]

/-- A lookup gives the post in the document under its key. -/
theorem transact_find (settled : env.draft = none) (user id : String) :
    transact (find user id) env =
      if env.readerHeld then (.error Failure.badReaderSlot.toStoreError, env)
      else (((env.entries.get? (postKey user id)).map decode).getD (.error (.notFound user id)),
        env) := by
  rw [find, transact_eq]
  split
  · rename_i held
    rw [run_bind_error _ (serve_beginRead_of_held held)]
    exact congrArg (_, ·) (abandon_of_settled settled)
  · rename_i free
    rw [run_bind_ok _ (serve_beginRead_of_free settled free), run_bind_ok _ rfl,
      working_of_settled settled]
    cases env.entries.get? (postKey user id) <;> exact congrArg (_, ·) (abandon_of_settled settled)

end Lookups

/-! ## Pages -/

/-- The entries from where a mark stands on. -/
def Entries.from (entries : Entries) (mark : Mark) : Entries :=
  entries.filter fun entry => within (mark.after.getD mark.owner) mark.after.isNone entry.1

/-- The entries of a listing's user that are still ahead of a mark. -/
def Entries.ahead (entries : Entries) (mark : Mark) : Entries :=
  (entries.from mark).takeWhile fun entry => mark.owner.isPrefixOf entry.1

/-- The mark behind a page. -/
def Mark.behind (mark : Mark) (page : Entries) : Option Mark :=
  if page.length < mark.pageSize then none
  else some { mark with after := (page.getLast?.map Prod.fst).or mark.after }

section Pages

variable {entries : Entries} {env : Environment} {mark : Mark}

/-- The file finds the first of the entries from a mark on. -/
theorem Entries.seek_eq (entries : Entries) (mark : Mark) :
    entries.seek (mark.after.getD mark.owner) mark.after.isNone = (entries.from mark).head? :=
  (List.head?_filter ..).symm

/-- Behind the first of them are the others. -/
theorem Entries.Sorted.from_next (sorted : entries.Sorted) {first : Bytes × Bytes} {rest : Entries}
    (found : entries.from mark = first :: rest) :
    entries.from { mark with after := some first.1 } = rest := by
  have ascending : Entries.Sorted (first :: rest) :=
    found ▸ List.Pairwise.sublist List.filter_sublist sorted
  obtain ⟨behind, -⟩ := List.pairwise_cons.1 ascending
  have inside : within (mark.after.getD mark.owner) mark.after.isNone first.1 = true :=
    (List.mem_filter.1 (found ▸ List.mem_cons_self : first ∈ entries.from mark)).2
  -- what is behind a key from the mark on is itself from the mark on
  have further : ∀ key, first.1 < key →
      within (mark.after.getD mark.owner) mark.after.isNone key = true := by
    intro key later
    simp only [within, Bool.or_eq_true, Bool.and_eq_true, decide_eq_true_eq] at inside ⊢
    rcases inside with beyond | ⟨-, here⟩
    · exact .inl (List.lt_trans beyond later)
    · exact .inl (here ▸ later)
  calc entries.from { mark with after := some first.1 }
      = entries.filter fun entry => decide (first.1 < entry.1) := by
        simp [Entries.from, within]
    _ = (entries.from mark).filter fun entry => decide (first.1 < entry.1) := by
        rw [Entries.from, List.filter_filter]
        refine List.filter_congr fun entry _ => ?_
        by_cases later : first.1 < entry.1
        · simp [later, further entry.1 later]
        · simp [later]
    _ = rest := by
        rw [found, List.filter_cons_of_neg (by simp [List.lt_irrefl]), List.filter_eq_self]
        exact fun entry member => decide_eq_true (behind entry member)

/-- Reading on gives as many of the entries ahead as there is room for. -/
theorem runReading_readOn (settled : env.draft = none) (sorted : env.entries.Sorted) (room : Nat) :
    ∀ (got : List Bytes) (mark : Mark),
      runReading Environment.serve (readOn got room mark) env =
        let page := (env.entries.ahead mark).take room
        (.ok (got ++ page.map Prod.snd,
          if page.length < room then none
          else some { mark with after := (page.getLast?.map Prod.fst).or mark.after }), env) := by
  induction room with
  | zero =>
    intro got mark
    simp only [List.take_zero, List.map_nil, List.append_nil, List.length_nil, Nat.lt_irrefl,
      if_false, List.getLast?_nil, Option.map_none, Option.none_or]
    rfl
  | succ room ih =>
    intro got mark
    have served : Environment.serve mark.seek env = (.ok (env.entries.from mark).head?, env) := by
      rw [Environment.serve, working_of_settled settled, Entries.seek_eq]
    rw [Entries.ahead]
    cases found : env.entries.from mark with
    | nil =>
      rw [found] at served
      rw [runReading_foreign served fun entry there => nomatch there]
      simp
    | cons first rest =>
      rw [found] at served
      rw [List.takeWhile_cons]
      split
      · rename_i own
        rw [runReading_own served (List.isPrefixOf_iff_prefix.1 own), ih, Entries.ahead,
          sorted.from_next found]
        simp only [List.take_succ_cons, List.map_cons, List.length_cons, Nat.add_lt_add_iff_right,
          List.append_assoc, List.singleton_append, List.getLast?_cons]
        cases ((rest.takeWhile fun entry => mark.owner.isPrefixOf entry.1).take room).getLast? <;>
          rfl
      · rename_i foreign
        have other : ∀ entry ∈ some first, ¬ mark.owner <+: entry.1 := by
          rintro entry ⟨⟩
          exact mt List.isPrefixOf_iff_prefix.2 foreign
        rw [runReading_foreign served other]
        simp

/-- A page holds the first of the entries ahead. -/
theorem transact_fetchPage (settled : env.draft = none) (sorted : env.entries.Sorted)
    (mark : Mark) :
    transact (fetchPage mark) env =
      if env.readerHeld then (.error { error := Failure.badReaderSlot.toStoreError }, env)
      else
        (.ok (((env.entries.ahead mark).take mark.pageSize).map Prod.snd,
          mark.behind ((env.entries.ahead mark).take mark.pageSize)), env) := by
  have read : transact (fetchPage mark) env =
      ((runReading Environment.serve (fetchPage mark) env).1,
        (runReading Environment.serve (fetchPage mark) env).2.abandon) := rfl
  rw [read]
  split
  · rename_i held
    rw [fetchPage, runReading_bind, serve_beginRead_of_held held]
    exact congrArg (_, ·) (abandon_of_settled settled)
  · rename_i free
    rw [runReading_opened (serve_beginRead_of_free settled free) rfl,
      runReading_readOn settled sorted]
    exact congrArg (_, ·) (abandon_of_settled settled)

end Pages

end PostStore.Lmdb
