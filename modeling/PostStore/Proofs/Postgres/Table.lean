import Mathlib.Data.List.Sort
import Mathlib.Data.String.Basic
import PostStore.Proofs.Draining
import PostStore.Proofs.Postgres.Paging
/-!
# A table in memory

A server that keeps its table as a list of posts and does what the statements say.  Whatever it is
asked, the table stays proper, as long as the posts that are inserted have identifiers.
-/

namespace PostStore.Postgres

/-! ## Times in columns -/

/-- The time that a column keeps of an instant. -/
def columnTime? (t : Instant) : Option Instant := Instant.ofMicros? t.toMicros

theorem tellable_columnTime? {t kept : Instant} (h : columnTime? t = some kept) :
    Tellable kept := by
  obtain ⟨-, nanos⟩ := Instant.ofParts?_eq_some h
  constructor
  · unfold Instant.WholeMicros
    omega
  · omega

/-- The time of a change is one that a column can tell. -/
theorem Tellable.next? {t clock later : Instant} (tellable : Tellable t) (read : Tellable clock)
    (h : t.next? clock = some later) : Tellable later := by
  obtain ⟨whole, plain⟩ := tellable
  unfold Instant.WholeMicros at whole
  obtain ⟨floor, added, rfl⟩ := Option.map_eq_some_iff.1 h
  -- the clock reading, or else a microsecond after the last change
  split
  · constructor
    · exact clock.wholeMicros_truncateToMicros
    · exact Nat.lt_of_le_of_lt (Nat.sub_le _ _) read.plain
  · simp only [Instant.addMicro?, if_pos plain] at added
    constructor
    · unfold Instant.WholeMicros
      split at added <;> have parts := Instant.ofParts?_eq_some added <;> omega
    · split at added <;> have parts := Instant.ofParts?_eq_some added <;> omega

/-! ## The server -/

/-- A table in memory. -/
abbrev Table := List Post

namespace Table

/-- Whether a text comes before another, by the characters in which they first differ. -/
def before (text text' : String) : Bool := decide (text < text')

/-- The posts of a user behind an identifier, in order. -/
def sorted (table : Table) (user after : String) : List Post :=
  (table.filter fun post => post.user = user && before after post.id).insertionSort
    fun post post' => post.id ≤ post'.id

/-- The post as its row keeps it, unless the time line ends before. -/
def kept? (post : Post) : Option Post := do
  let createdAt ← columnTime? post.createdAt
  let updatedAt ← columnTime? post.updatedAt
  return { post with createdAt := createdAt, updatedAt := updatedAt }

/-- The post after a change of its row, unless the time line ends before. -/
def changed? (post : Post) (data : String) (time : Instant) : Option Post := do
  let time ← columnTime? time
  post.withData? data time

/-- Does what questions ask for. -/
def serve : (question : Ask) → Table → question.Reply × Table
  | .connect, table => (.ok (), table)
  | .execute .createTable, table => (.ok [], table)
  | .execute (.insert post), table =>
    match kept? post with
    | none => (.error Server.errorMessage, table)
    | some post =>
      if keyOf post ∈ table.map keyOf then (.error Server.errorMessage, table)
      else (.ok [], table ++ [post])
  | .execute (.select user id), table => (.ok ((heldIn table user id).toList.map Row.ofPost), table)
  | .execute (.selectPage user after limit), table =>
    (.ok (((table.sorted user after).take limit.toNat).map Row.ofPost), table)
  | .execute (.update data time user id), table =>
    match heldIn table user id with
    | none => (.ok [], table)
    | some post =>
      match changed? post data time with
      | none => (.error Server.errorMessage, table)
      | some changed =>
        (.ok [Row.ofPost changed],
          table.map fun other => if keyOf other = keyOf post then changed else other)
  | .execute (.delete user id), table => (.ok [], table.filter fun post => keyOf post ≠ (user, id))

/-- Texts are in order by their characters. -/
theorem collates : Collates before where
  irrefl text := decide_eq_false (lt_irrefl text)
  trans less more := by
    unfold before at less more ⊢
    exact decide_eq_true (lt_trans (of_decide_eq_true less) (of_decide_eq_true more))
  total differ := (lt_or_gt_of_ne differ).imp decide_eq_true decide_eq_true
  least := by
    intro text named
    obtain ⟨first, rest, cons⟩ := List.exists_cons_of_ne_nil (mt String.toList_eq_nil_iff.1 named)
    refine decide_eq_true (String.lt_iff_toList_lt.2 ?_)
    rw [cons]
    exact List.nil_lt_cons first rest

instance : Std.Total fun post post' : Post => post.id ≤ post'.id :=
  ⟨fun post post' => le_total post.id post'.id⟩

instance : IsTrans Post fun post post' => post.id ≤ post'.id :=
  ⟨fun _ _ _ => le_trans⟩

/-- **The table selects pages as the statement says.** -/
theorem selectsPages : SelectsPages serve before fun table => table where
  collates := collates
  connect _ := rfl
  selectPage user after limit table rows table' served := by
    obtain ⟨reply, rfl⟩ := Prod.mk.inj served
    obtain rfl := Except.ok.inj reply
    refine ⟨_, ⟨table.sorted user after, List.perm_insertionSort _ _, ?_, rfl⟩, rfl⟩
    have ascending := List.pairwise_insertionSort (fun post post' : Post => post.id ≤ post'.id)
      (table.filter fun post => post.user = user && before after post.id)
    exact ascending.imp fun less => decide_eq_false (not_lt.2 less)

/-! ## Proper tables -/

/-- A post as its row keeps it has the same key and times that a column can tell. -/
theorem kept?_eq_some {post kept : Post} (h : kept? post = some kept) :
    keyOf kept = keyOf post ∧ Keepable kept := by
  obtain ⟨createdAt, created, h⟩ := Option.bind_eq_some_iff.1 h
  obtain ⟨updatedAt, updated, h⟩ := Option.bind_eq_some_iff.1 h
  obtain rfl := Option.some.inj h
  exact ⟨rfl, tellable_columnTime? created, tellable_columnTime? updated⟩

/-- A post after a change has the same key and times that a column can tell. -/
theorem changed?_eq_some {post changed : Post} {data : String} {time : Instant}
    (keepable : Keepable post) (h : changed? post data time = some changed) :
    keyOf changed = keyOf post ∧ Keepable changed := by
  obtain ⟨clock, read, h⟩ := Option.bind_eq_some_iff.1 h
  obtain ⟨later, next, rfl⟩ := Option.map_eq_some_iff.1 h
  exact ⟨rfl, keepable.created, keepable.updated.next? (tellable_columnTime? read) next⟩

section Proper

variable {table : Table} {post : Post}

theorem Proper.sublist {table' : Table} (proper : Proper table) (part : table'.Sublist table) :
    Proper table' where
  keys := proper.keys.sublist (part.map keyOf)
  named post member := proper.named post (part.subset member)
  keepable post member := proper.keepable post (part.subset member)

/-- A post under a new key can be added. -/
theorem Proper.snoc (proper : Proper table) (new : keyOf post ∉ table.map keyOf)
    (named : post.id ≠ "") (keepable : Keepable post) : Proper (table ++ [post]) where
  keys := by
    rw [List.map_append, List.map_singleton]
    exact List.nodup_append_comm.1 (List.nodup_cons.2 ⟨new, proper.keys⟩)
  named := List.forall_mem_append.2 ⟨proper.named, List.forall_mem_singleton.2 named⟩
  keepable := List.forall_mem_append.2 ⟨proper.keepable, List.forall_mem_singleton.2 keepable⟩

/-- A post can be put in the place of the one under its key. -/
theorem Proper.replace (proper : Proper table) {old : Post} (member : old ∈ table)
    (same : keyOf post = keyOf old) (keepable : Keepable post) :
    Proper (table.map fun other => if keyOf other = keyOf old then post else other) where
  keys := by
    have unchanged : (table.map fun other => if keyOf other = keyOf old then post else other).map
        keyOf = table.map keyOf := by
      rw [List.map_map]
      refine List.map_congr_left fun other _ => ?_
      show keyOf (if keyOf other = keyOf old then post else other) = keyOf other
      split
      · rename_i key
        rw [same, key]
      · rfl
    rw [unchanged]
    exact proper.keys
  named := by
    intro other here
    obtain ⟨before, there, rfl⟩ := List.mem_map.1 here
    split
    · rw [(Prod.mk.inj same).2]
      exact proper.named old member
    · exact proper.named before there
  keepable := by
    intro other here
    obtain ⟨before, there, rfl⟩ := List.mem_map.1 here
    split
    · exact keepable
    · exact proper.keepable before there

end Proper

/-- Statements keep a table proper, as long as no post without an identifier is inserted. -/
theorem proper_serve {table : Table} (proper : Proper table) (question : Ask)
    (named : ∀ post, question = .execute (.insert post) → post.id ≠ "") :
    Proper (serve question table).2 := by
  cases question with
  | connect => exact proper
  | execute statement =>
    cases statement with
    | createTable => exact proper
    | select user id => exact proper
    | selectPage user after limit => exact proper
    | insert post =>
      simp only [serve]
      split
      · exact proper
      · rename_i kept keeps
        obtain ⟨key, keepable⟩ := kept?_eq_some keeps
        split
        · exact proper
        · rename_i new
          have same : kept.id = post.id := (Prod.mk.inj key).2
          exact Proper.snoc proper new (same ▸ named post rfl) keepable
    | update data time user id =>
      simp only [serve]
      split
      · exact proper
      · rename_i post found
        obtain ⟨member, -⟩ := heldIn_own found
        split
        · exact proper
        · rename_i changed changes
          obtain ⟨key, keepable⟩ := changed?_eq_some (proper.keepable post member) changes
          exact Proper.replace proper member key keepable
    | delete user id => exact Proper.sublist proper List.filter_sublist

/-! ## Calls -/

/-- A talk that says nothing more after a statement leaves the table as the statement does. -/
theorem converse_execute_table {α : Type} {next : List Row → Talk α}
    (silent : ∀ rows table, (converseWith serve (next rows) table).2 = table)
    (statement : Statement) (table : Table) :
    (converseWith serve (execute statement >>= next) table).2 =
      (serve (.execute statement) table).2 := by
  have connected : serve .connect table = (.ok (), table) := rfl
  rw [converseWith, run_execute_bind]
  rcases served : serve (.execute statement) table with ⟨message | rows, table'⟩
  · simp only [Dialogue.run, connected, served]
  · simp only [Dialogue.run, connected, served]
    exact silent rows table'

/-- Looking for one row changes nothing after the statement. -/
theorem converse_single_table (user id : String) (statement : Statement) (table : Table) :
    (converseWith serve (single user id statement) table).2 =
      (serve (.execute statement) table).2 := by
  refine converse_execute_table (fun rows table => ?_) statement table
  rcases rows with _ | ⟨row, _ | ⟨row', rest⟩⟩ <;> rfl

/-- Selecting a page changes nothing. -/
theorem converse_fetchPage_table (mark : Mark) (table : Table) :
    (converseWith serve (fetchPage mark) table).2 = table := by
  refine converse_execute_table (fun rows table => ?_) _ table
  cases rows.getLast? with
  | none => rfl
  | some last =>
    simp only
    cases Column.text? last.id <;> rfl

/-- A call that gives every post it creates an identifier. -/
def Names : Call → Prop
  | .create _ _ fresh => fresh.id ≠ ""
  | _ => True

/-- **Calls keep a table proper**, as long as posts are created with identifiers. -/
theorem proper_call {table : Table} (proper : Proper table) (pageSize : Nat)
    (bound : Mark → Table → Nat) (call : Call) (named : Names call) :
    Proper ((storeOver serve pageSize bound).serve call table).2 := by
  cases call with
  | create user data fresh =>
    show Proper (converseWith serve (perform (max 1 pageSize) (.create user data fresh)) table).2
    rw [perform, converse_execute_table fun _ _ => rfl]
    refine proper_serve proper _ fun post same => ?_
    cases same
    exact named
  | read user id =>
    show Proper (converseWith serve (perform (max 1 pageSize) (.read user id)) table).2
    rw [perform, converse_single_table]
    exact proper_serve proper _ fun _ same => by cases same
  | readAll user => exact proper
  | update user id data clock =>
    show Proper (converseWith serve (perform (max 1 pageSize) (.update user id data clock)) table).2
    rw [perform, converse_single_table]
    exact proper_serve proper _ fun _ same => by cases same
  | delete user id =>
    show Proper (converseWith serve (perform (max 1 pageSize) (.delete user id)) table).2
    rw [perform, converse_execute_table fun _ _ => rfl]
    exact proper_serve proper _ fun _ same => by cases same

/-- Advancing keeps a table proper. -/
theorem proper_next {table : Table} (proper : Proper table) (pageSize : Nat)
    (bound : Mark → Table → Nat) (cursor : Rows) :
    Proper ((storeOver serve pageSize bound).feed.next cursor table).2.2 := by
  have advance : (storeOver serve pageSize bound).feed.next =
      Cursor.next (Cursor.atOnce fun mark => converseWith serve (fetchPage mark)) := rfl
  rw [advance]
  refine Cursor.next_atOnce_keeps Proper (fun mark table _ table' proper got => ?_) cursor proper
  have still : table' = table := by
    rw [← converse_fetchPage_table mark table, got]
  rw [still]
  exact proper

section Runs

variable {table : Table} (proper : Proper table) (pageSize : Nat) (bound : Mark → Table → Nat)

include proper

/-- A proper table stays so while calls are made. -/
theorem proper_after (calls : List Call) (named : ∀ call ∈ calls, Names call) :
    Proper ((storeOver serve pageSize bound).after calls table) :=
  Store.after_keeps Proper (fun call _ named proper => proper_call proper pageSize bound call named)
    calls named proper

/-- A proper table stays so while a listing is read and others make calls. -/
theorem proper_run (cursor : Rows) (turns : List Paging.Turn)
    (named : ∀ call, .call call ∈ turns → Names call) :
    ∀ table' ∈ ((Paging.Chronicle.start cursor table).run
      (storeOver serve pageSize bound) turns).past, Proper table' :=
  Paging.Chronicle.past_run
    (fun call _ named proper => proper_call proper pageSize bound call named)
    (fun cursor _ proper => proper_next proper pageSize bound cursor) turns named proper
    (List.forall_mem_singleton.2 proper)

end Runs

end Table

end PostStore.Postgres
