import PostStore.Proofs.Postgres.Statements
import PostStore.Proofs.ServiceRuns
import PostStore.Proofs.Timestamps
/-!
# The store in a database agrees with the store in memory

A table shows a catalogue when it holds the posts of the catalogue, in any order.  Each statement
keeps it so, because it does to the post under a key what the call does to the catalogue; and the
pages of a listing are cut from what the table holds of the user, in order, one after the other.
-/

namespace PostStore

/-! ## Calls that a database takes -/

/-- The texts of a call. -/
def Call.texts : Call → List String
  | .create user data fresh => [user, data, fresh.id]
  | .read user id => [user, id]
  | .readAll user => [user]
  | .update user id data _ => [user, id, data]
  | .delete user id => [user, id]

namespace Postgres

/-- Whether a server whose times start at some instant takes what a call sends.  Identifiers that
are made up are never empty. -/
structure Sendable (earliest : Instant) (call : Call) : Prop where
  texts : ∀ text ∈ call.texts, Plain text
  clock : ∀ t ∈ call.clock?, (Parameter.time t.truncateToMicros).Admitted earliest
  named : ∀ id ∈ call.freshId?, id ≠ ""

instance (earliest : Instant) (call : Call) : Decidable (Sendable earliest call) :=
  decidable_of_iff ((∀ text ∈ call.texts, Plain text) ∧
      (∀ t ∈ call.clock?, (Parameter.time t.truncateToMicros).Admitted earliest) ∧
        ∀ id ∈ call.freshId?, id ≠ "")
    ⟨fun all => ⟨all.1, all.2.1, all.2.2⟩,
      fun sendable => ⟨sendable.texts, sendable.clock, sendable.named⟩⟩

/-- The statement that a call sends at once. -/
def statement? : Call → Option Statement
  | .create user data fresh => some (.insert (Post.make user data fresh))
  | .read user id => some (.select user id)
  | .readAll _ => none
  | .update user id data clock => some (.update data clock.truncateToMicros user id)
  | .delete user id => some (.delete user id)

/-- The server takes the parameters of the statement. -/
theorem Sendable.admitted {earliest : Instant} {call : Call} (sendable : Sendable earliest call)
    {statement : Statement} (sent : statement? call = some statement) :
    ∀ parameter ∈ statement.parameters, parameter.Admitted earliest := by
  have texts := sendable.texts
  have clock := sendable.clock
  cases call with
  | create user data fresh =>
    cases sent
    simp only [Call.texts, List.forall_mem_cons] at texts
    obtain ⟨user, data, id, -⟩ := texts
    have time := clock fresh.clock rfl
    simpa [Statement.parameters, Post.make] using ⟨user, id, data, time⟩
  | read user id =>
    cases sent
    simpa [Statement.parameters, Call.texts] using texts
  | readAll user => cases sent
  | update user id data clock' =>
    cases sent
    simp only [Call.texts, List.forall_mem_cons] at texts
    obtain ⟨user, id, data, -⟩ := texts
    have time := clock clock' rfl
    simpa [Statement.parameters] using ⟨data, time, user, id⟩
  | delete user id =>
    cases sent
    simpa [Statement.parameters, Call.texts] using texts

/-- Whether a call finds a new key for its post, and a later time for its change. -/
def Permits (held : Catalogue) : Call → Prop
  | .create user _ fresh => held user fresh.id = none
  | .update user id data clock => held.change user id data clock ≠ .error .noLaterInstant
  | .read .. | .readAll _ | .delete .. => True

/-! ## Tables that hold a catalogue -/

/-- A proper table whose identifiers can be sent back, and which holds the posts of a catalogue. -/
structure Filled (held : Catalogue) (posts : List Post) : Prop where
  proper : Proper posts
  plain : ∀ post ∈ posts, Plain post.id
  holds : ∀ user id post, held user id = some post ↔ post ∈ posts ∧ keyOf post = (user, id)

section Filled

variable {held : Catalogue} {posts posts' : List Post} {user id data : String}
  {post changed : Post}

theorem filled_empty : Filled (fun _ _ => none) [] where
  proper := ⟨List.nodup_nil, fun _ member => (List.not_mem_nil member).elim,
    fun _ member => (List.not_mem_nil member).elim⟩
  plain _ member := (List.not_mem_nil member).elim
  holds _ _ _ := by simp

/-- What the table holds is the catalogue. -/
theorem Filled.heldIn_eq (filled : Filled held posts) : heldIn posts = held := by
  funext user id
  refine Option.ext fun post => ?_
  rw [filled.proper.heldIn_iff, filled.holds, keyOf, Prod.mk.injEq]

/-- Under a key is what the catalogue has there. -/
theorem Filled.under_eq (filled : Filled held posts) (user id : String) :
    under user id posts = (held user id).toList := by
  rw [filled.proper.under_eq, filled.heldIn_eq]

/-- Posts of the catalogue have times that a column can tell. -/
theorem Filled.keepable (filled : Filled held posts) (found : held user id = some post) :
    Keepable post :=
  filled.proper.keepable post ((filled.holds user id post).1 found).1

/-- A key under which the catalogue has nothing is that of no post. -/
theorem Filled.key_new (filled : Filled held posts) (new : held post.user post.id = none) :
    keyOf post ∉ posts.map keyOf := by
  intro used
  obtain ⟨other, member, key⟩ := List.mem_map.1 used
  have found := (filled.holds post.user post.id other).2 ⟨member, key⟩
  rw [new] at found
  cases found

/-- The order of the posts does not matter. -/
theorem Filled.perm (filled : Filled held posts) (perm : posts'.Perm posts) :
    Filled held posts' where
  proper := filled.proper.perm perm
  plain post member := filled.plain post (perm.subset member)
  holds user id post := by rw [filled.holds, perm.mem_iff]

/-- A post that is added is filed. -/
theorem Filled.snoc (filled : Filled held posts) (new : held post.user post.id = none)
    (named : post.id ≠ "") (plain : Plain post.id) (keepable : Keepable post) :
    Filled (held.file post) (posts ++ [post]) where
  proper := Table.Proper.snoc filled.proper (filled.key_new new) named keepable
  plain := List.forall_mem_append.2 ⟨filled.plain, List.forall_mem_singleton.2 plain⟩
  holds user id other := by
    rw [List.mem_append, List.mem_singleton]
    by_cases here : user = post.user ∧ id = post.id
    · obtain ⟨rfl, rfl⟩ := here
      rw [Catalogue.file_self, Option.some_inj]
      constructor
      · rintro rfl
        exact ⟨.inr rfl, rfl⟩
      · rintro ⟨old | same, key⟩
        · exact absurd (List.mem_map.2 ⟨other, old, key⟩) (filled.key_new new)
        · exact same.symm
    · rw [Catalogue.file_ne here, filled.holds]
      refine and_congr_left fun key => ⟨.inl, fun added => added.resolve_right ?_⟩
      rintro rfl
      exact here ⟨(Prod.mk.inj key).1.symm, (Prod.mk.inj key).2.symm⟩

/-- Posts that are deleted are dropped. -/
theorem Filled.drop (filled : Filled held posts) (user id : String) :
    Filled (held.drop user id) (posts.filter fun post => keyOf post ≠ (user, id)) where
  proper := Table.Proper.sublist filled.proper List.filter_sublist
  plain post member := filled.plain post (List.mem_of_mem_filter member)
  holds user' id' post := by
    rw [List.mem_filter, decide_eq_true_eq]
    by_cases here : user' = user ∧ id' = id
    · obtain ⟨rfl, rfl⟩ := here
      rw [Catalogue.drop_self]
      constructor
      · exact fun found => nomatch found
      · exact fun kept => absurd kept.2 kept.1.2
    · rw [Catalogue.drop_ne here, filled.holds]
      constructor
      · refine fun found => ⟨⟨found.1, fun key => here ?_⟩, found.2⟩
        exact Prod.mk.inj (found.2.symm.trans key)
      · exact fun kept => ⟨kept.1.1, kept.2⟩

/-- A post that is put in the place of another is filed. -/
theorem Filled.replace (filled : Filled held posts) (found : held user id = some post)
    (same : keyOf changed = keyOf post) (keepable : Keepable changed) :
    Filled (held.file changed)
      (posts.map fun other => if keyOf other = keyOf post then changed else other) where
  proper := Table.Proper.replace filled.proper ((filled.holds user id post).1 found).1 same keepable
  plain := by
    intro other here
    obtain ⟨before, there, rfl⟩ := List.mem_map.1 here
    split
    · rw [(Prod.mk.inj same).2]
      exact filled.plain post ((filled.holds user id post).1 found).1
    · exact filled.plain before there
  holds user' id' other := by
    have member := ((filled.holds user id post).1 found).1
    rw [List.mem_map]
    by_cases here : user' = changed.user ∧ id' = changed.id
    · obtain ⟨rfl, rfl⟩ := here
      rw [Catalogue.file_self, Option.some_inj]
      constructor
      · rintro rfl
        exact ⟨⟨post, member, if_pos rfl⟩, rfl⟩
      · rintro ⟨⟨before, -, rfl⟩, key⟩
        split
        · rfl
        · rename_i differ
          rw [if_neg differ] at key
          exact absurd (key.trans same) differ
    · rw [Catalogue.file_ne here, filled.holds]
      constructor
      · rintro ⟨old, key⟩
        refine ⟨⟨other, old, if_neg fun again => here ?_⟩, key⟩
        exact Prod.mk.inj (key.symm.trans (again.trans same.symm))
      · rintro ⟨⟨before, old, rfl⟩, key⟩
        split at key
        · exact absurd ⟨(Prod.mk.inj key).1.symm, (Prod.mk.inj key).2.symm⟩ here
        · rename_i differ
          rw [if_neg differ]
          exact ⟨old, key⟩

/-- A change finds no post, or a post and what becomes of it, unless the time line ends. -/
theorem change_cases {clock : ClockReading}
    (inTime : held.change user id data clock ≠ .error .noLaterInstant) :
    (held user id = none ∧ held.change user id data clock = .error (.notFound user id)) ∨
      ∃ post changed, held user id = some post ∧ post.withData? data clock = some changed ∧
        held.change user id data clock = .ok changed := by
  unfold Catalogue.change at inTime ⊢
  cases found : held user id with
  | none => exact .inl ⟨rfl, rfl⟩
  | some post =>
    rw [found] at inTime
    cases later : post.withData? data clock with
    | none =>
      simp only [later] at inTime
      exact absurd rfl inTime
    | some changed => exact .inr ⟨post, changed, rfl, later, by simp only [later]⟩

/-- An update applies where the change finds no post or a later time. -/
theorem Filled.applies_update (filled : Filled held posts) {clock : ClockReading}
    (read : Tellable clock.truncateToMicros)
    (inTime : held.change user id data clock ≠ .error .noLaterInstant) :
    (Meaning.update data clock.truncateToMicros user id).applies posts := by
  intro post member
  rw [filled.under_eq, Option.mem_toList] at member
  rw [set?_eq_withData? (filled.keepable member) read]
  rcases change_cases inTime with ⟨absent, -⟩ | ⟨old, changed, found, later, -⟩
  · rw [absent] at member
    cases member
  · obtain rfl := Option.some.inj (found.symm.trans member)
    rw [later]
    rfl

end Filled

/-! ## Pages of a table -/

section Pages

variable {before : String → String → Bool} {mark : Mark} {posts page rest : List Post}

/-- What is behind a mark in a table. -/
def Mark.facing (mark : Mark) (before : String → String → Bool) (posts : List Post) : List Post :=
  posts.filter fun post => post.user = mark.user && before mark.after post.id

/-- What is behind a page is what is behind the mark, but for the page. -/
theorem Mark.facing_behind (collates : Collates before)
    (perm : (page ++ rest).Perm (mark.facing before posts))
    (ascending : (page ++ rest).Pairwise fun post post' => before post.id post'.id = true)
    (nonempty : page ≠ []) : rest.Perm ((mark.behind page).facing before posts) := by
  obtain ⟨first, -, across⟩ := List.pairwise_append.1 ascending
  have behind : ∀ id, before (mark.behind page).after id = true ↔
      ∀ post ∈ page, before post.id id = true := fun _ =>
    Mark.behind_iff collates first mark nonempty
  have narrower : (mark.behind page).facing before posts =
      (mark.facing before posts).filter fun post => before (mark.behind page).after post.id := by
    rw [Mark.facing, Mark.facing, List.filter_filter]
    refine List.filter_congr fun post _ => ?_
    have user : (mark.behind page).user = mark.user := rfl
    rw [user]
    cases beyond : before (mark.behind page).after post.id with
    | false => rw [Bool.and_false, Bool.false_and]
    | true =>
      obtain ⟨earlier, member⟩ := List.exists_mem_of_ne_nil page nonempty
      have here := (mem_sorted perm).1 (List.mem_append_left rest member)
      rw [collates.trans here.2.2 ((behind post.id).1 beyond earlier member), Bool.true_and]
  have nothing : (page.filter fun post => before (mark.behind page).after post.id) = [] := by
    refine List.filter_eq_nil_iff.2 fun post member beyond => ?_
    have less := (behind post.id).1 beyond post member
    rw [collates.irrefl] at less
    cases less
  have all : (rest.filter fun post => before (mark.behind page).after post.id) = rest :=
    List.filter_eq_self.2 fun post member =>
      (behind post.id).2 fun earlier inPage => across earlier inPage post member
  have cut := perm.filter fun post => before (mark.behind page).after post.id
  rw [List.filter_append, nothing, all, List.nil_append] at cut
  rw [narrower]
  exact cut

/-- A page that is selected is the first part of what is behind the mark; nothing else is, unless
the page is full, and then the rest is behind the page. -/
theorem Selects.split
    (selects : Selects before posts mark.user mark.after mark.pageSize page)
    (collates : Collates before) (proper : Proper posts) :
    ∃ rest, (page ++ rest).Perm (mark.facing before posts) ∧
      (page.length < mark.pageSize → rest = []) ∧
        (page ≠ [] → rest.Perm ((mark.behind page).facing before posts)) := by
  obtain ⟨sorted, perm, order, rfl⟩ := selects
  have ascending := sorted_ascending collates proper perm order
  rw [Int.toNat_natCast]
  rw [← List.take_append_drop mark.pageSize sorted] at perm ascending
  refine ⟨sorted.drop mark.pageSize, perm, ?_, Mark.facing_behind collates perm ascending⟩
  intro short
  rw [List.length_take] at short
  exact List.drop_eq_nil_of_le (by omega)

/-- A listing goes on behind an identifier that can be sent back. -/
theorem Mark.plain_behind (plain : ∀ post ∈ page, Plain post.id) (after : Plain mark.after) :
    Plain (mark.behind page).after := by
  rw [Mark.behind]
  cases last : page.getLast? with
  | none => exact after
  | some post => exact plain post (List.mem_of_getLast? last)

end Pages

/-! ## Statements on a server -/

section Serving

variable {σ : Type} {engine : Engine σ} {before : String → String → Bool} {earliest : Instant}
  {table : σ → List Post} {s : σ}

/-- A statement is executed on a connection as it is meant, and the talk goes on with the rows that
it gives. -/
theorem converse_means (executes : engine.Executes before earliest table)
    (proper : Proper (table s)) (statement : Statement)
    (applies : ∀ posts, posts.Perm (table s) → (statement.meaning before).applies posts)
    (admitted : ∀ parameter ∈ statement.parameters, parameter.Admitted earliest) :
    ∃ posts rows s', posts.Perm (table s) ∧ (statement.meaning before).gives posts rows ∧
      (table s').Perm ((statement.meaning before).leaves posts) ∧
        ∀ {α : Type} (next : List Row → Talk α),
          converseWith engine.serve (execute statement >>= next) s =
            converseWith engine.serve (next rows) s' := by
  obtain ⟨s₁, connected, perm⟩ := executes.connect s
  obtain ⟨rows, s', done, gives, leaves⟩ :=
    executes.means statement s₁ (proper.perm perm) (applies (table s₁) perm) admitted
  refine ⟨table s₁, rows, s', perm, gives, leaves, fun next => ?_⟩
  rw [converseWith, run_execute_bind]
  simp only [Dialogue.run, Engine.serve, connected, done]
  rfl

/-- A row that is looked for is read as its post. -/
theorem converse_single {statement : Statement} {user id : String} {found : Option Post} {s' : σ}
    (keepable : ∀ post ∈ found, Keepable post)
    (talk : ∀ {α : Type} (next : List Row → Talk α),
      converseWith engine.serve (execute statement >>= next) s =
        converseWith engine.serve (next (found.toList.map Row.ofPost)) s') :
    converseWith engine.serve (single user id statement) s =
      (found.elim (.error (.notFound user id)) .ok, s') := by
  rw [single, talk]
  cases found with
  | none => rfl
  | some post => exact congrArg (·, s') (decode_ofPost (keepable post rfl))

/-! ## Single posts -/

variable {held : Catalogue}

/-- A post is inserted and filed. -/
theorem converse_insert (executes : engine.Executes before earliest table)
    (filled : Filled held (table s)) {post : Post} (new : held post.user post.id = none)
    (named : post.id ≠ "")
    (admitted : ∀ parameter ∈ (Statement.insert post).parameters, parameter.Admitted earliest) :
    ∃ s', Filled (held.file post) (table s') ∧ ∀ {α : Type} (value : α),
      converseWith engine.serve (execute (.insert post) >>= fun _ => pure value) s =
        (.ok value, s') := by
  obtain ⟨posts, rows, s', perm, -, leaves, talk⟩ := converse_means executes filled.proper
    (.insert post) (fun _ perm => (filled.perm perm).key_new new) admitted
  have plain : Plain post.id := admitted (.text post.id) (by simp [Statement.parameters])
  have created := (admitted (.time post.createdAt) (by simp [Statement.parameters])).1
  have updated := (admitted (.time post.updatedAt) (by simp [Statement.parameters])).1
  refine ⟨s', ?_, fun value => talk _⟩
  exact ((filled.perm perm).snoc new named plain ⟨created, updated⟩).perm leaves

/-- A post is selected as the catalogue has it. -/
theorem converse_select (executes : engine.Executes before earliest table)
    (filled : Filled held (table s)) {user id : String}
    (admitted : ∀ parameter ∈ (Statement.select user id).parameters, parameter.Admitted earliest) :
    ∃ s', converseWith engine.serve (single user id (.select user id)) s =
      (held.lookup user id, s') ∧ Filled held (table s') := by
  obtain ⟨posts, rows, s', perm, gives, leaves, talk⟩ := converse_means executes filled.proper
    (.select user id) (fun _ _ => trivial) admitted
  have filled' := filled.perm perm
  obtain rfl : rows = (held user id).toList.map Row.ofPost := by
    have given : rows.Perm ((under user id posts).map Row.ofPost) := gives
    rw [filled'.under_eq] at given
    cases found : held user id with
    | none =>
      rw [found] at given
      exact List.perm_nil.1 given
    | some post =>
      rw [found] at given
      exact List.perm_singleton.1 given
  refine ⟨s', ?_, filled'.perm leaves⟩
  rw [converse_single (fun _ found => filled.keepable found) talk, Catalogue.lookup]
  cases held user id <;> rfl

/-- A change gives what the catalogue gives, unless the time line ends, and files it. -/
theorem converse_update (executes : engine.Executes before earliest table)
    (filled : Filled held (table s)) {user id data : String} {clock : ClockReading}
    (inTime : held.change user id data clock ≠ .error .noLaterInstant)
    (admitted : ∀ parameter ∈ (Statement.update data clock.truncateToMicros user id).parameters,
      parameter.Admitted earliest) :
    ∃ s', converseWith engine.serve
        (single user id (.update data clock.truncateToMicros user id)) s =
      (held.change user id data clock, s') ∧
        Filled (held.afterChange (held.change user id data clock)) (table s') := by
  have read : Tellable clock.truncateToMicros :=
    (admitted (.time clock.truncateToMicros) (by simp [Statement.parameters])).1
  obtain ⟨posts, rows, s', perm, gives, leaves, talk⟩ := converse_means executes filled.proper
    (.update data clock.truncateToMicros user id)
    (fun _ perm => (filled.perm perm).applies_update read inTime) admitted
  have filled' := filled.perm perm
  have given : rows.Perm (((under user id posts).filterMap
    (set? data clock.truncateToMicros)).map Row.ofPost) := gives
  rw [filled'.under_eq] at given
  rcases change_cases inTime with ⟨absent, answer⟩ | ⟨post, changed, found, later, answer⟩
  · rw [absent] at given
    obtain rfl := List.perm_nil.1 given
    have nothing : ∀ post ∈ none, Keepable post := fun post member =>
      absurd member (Option.not_mem_none post)
    rw [answer]
    refine ⟨s', converse_single nothing talk, filled'.perm (leaves.trans (.of_eq ?_))⟩
    exact filled'.proper.leaves_update_none (filled'.heldIn_eq ▸ absent)
  · have set := (set?_eq_withData? (filled.keepable found) read data).trans later
    rw [found, Option.toList_some, List.filterMap_cons_some set] at given
    obtain rfl := List.perm_singleton.1 given
    obtain ⟨same, kept⟩ := (filled.keepable found).set? set
    have one : ∀ post ∈ some changed, Keepable post := fun _ member => Option.some.inj member ▸ kept
    rw [answer]
    refine ⟨s', converse_single one talk, (filled'.replace found same kept).perm ?_⟩
    exact leaves.trans (.of_eq
      (filled'.proper.leaves_update_some (filled'.heldIn_eq ▸ found) set))

/-- What is under a key is deleted and dropped. -/
theorem converse_delete (executes : engine.Executes before earliest table)
    (filled : Filled held (table s)) {user id : String}
    (admitted : ∀ parameter ∈ (Statement.delete user id).parameters, parameter.Admitted earliest) :
    ∃ s', Filled (held.drop user id) (table s') ∧
      converseWith engine.serve (execute (.delete user id) >>= fun _ => pure ()) s =
        (.ok (), s') := by
  obtain ⟨posts, rows, s', perm, -, leaves, talk⟩ := converse_means executes filled.proper
    (.delete user id) (fun _ _ => trivial) admitted
  exact ⟨s', ((filled.perm perm).drop user id).perm leaves, talk _⟩

/-! ## Listings -/

/-- A page is fetched, and the listing goes on behind a full page. -/
theorem converse_fetchPage (executes : engine.Executes before earliest table)
    (proper : Proper (table s)) {mark : Mark} (fits : mark.pageSize < 2 ^ 63)
    (user : Plain mark.user) (after : Plain mark.after) :
    ∃ page s', Selects before (table s) mark.user mark.after mark.pageSize page ∧
      (table s').Perm (table s) ∧
        converseWith engine.serve (fetchPage mark) s =
          (.ok (page.map Row.ofPost,
            if page.length < mark.pageSize then none else some (mark.behind page)), s') := by
  have admitted : ∀ parameter ∈ (Statement.selectPage mark.user mark.after
      (limitOf mark.pageSize)).parameters, parameter.Admitted earliest := by
    rw [Statement.parameters, limitOf_eq fits]
    refine List.forall_mem_cons.2 ⟨user, List.forall_mem_cons.2 ⟨after, ?_⟩⟩
    refine List.forall_mem_singleton.2 ⟨?_, ?_⟩ <;> omega
  have applies : 0 ≤ limitOf mark.pageSize := by
    rw [limitOf_eq fits]
    exact Int.natCast_nonneg _
  obtain ⟨posts, rows, s', perm, gives, leaves, talk⟩ := converse_means executes proper
    (.selectPage mark.user mark.after (limitOf mark.pageSize)) (fun _ _ => applies) admitted
  obtain ⟨page, ⟨sorted, behind, order, cut⟩, rfl⟩ := gives
  rw [limitOf_eq fits] at cut
  refine ⟨page, s', ⟨sorted, behind.trans (perm.filter _), order, cut⟩, leaves.trans perm, ?_⟩
  rw [fetchPage, talk, List.getLast?_map]
  -- the mark behind the page is read from the column of the last row
  cases last : page.getLast? with
  | none =>
    rw [Mark.behind, last, List.length_map]
    rfl
  | some post =>
    simp only [Option.map_some, Row.ofPost, text?_textColumn, Mark.behind, last, List.length_map]
    rfl

/-- From a mark on, the pages hold what is behind the mark. -/
theorem ahead_of_facing (executes : engine.Executes before earliest table) (count : Nat) :
    ∀ {s : σ} (mark : Mark), Filled held (table s) → 0 < mark.pageSize → mark.pageSize < 2 ^ 63 →
      Plain mark.user → Plain mark.after → (mark.facing before (table s)).length < count →
        ∃ (posts : List Post) (final : σ), posts.Perm (mark.facing before (table s)) ∧
          (table final).Perm (table s) ∧
          Cursor.Ahead (Cursor.atOnce fun mark => converseWith engine.serve (fetchPage mark))
            (some mark) s (posts.map Row.ofPost) final := by
  induction count with
  | zero => exact fun _ _ _ _ _ _ few => absurd few (Nat.not_lt_zero _)
  | succ count ih =>
    intro s mark filled positive fits user after few
    obtain ⟨page, s', selects, still, fetched⟩ :=
      converse_fetchPage executes filled.proper fits user after
    obtain ⟨rest, perm, short, behind⟩ := selects.split executes.collates filled.proper
    by_cases full : page.length < mark.pageSize
    · obtain rfl := short full
      rw [if_pos full] at fetched
      rw [List.append_nil] at perm
      refine ⟨page, s', perm, still, ?_⟩
      -- only a last page can be empty
      cases page with
      | nil => exact .last (Cursor.atOnce_eq_ok.2 fetched)
      | cons post page =>
        rw [← List.append_nil (List.map _ _)]
        exact .page (Cursor.atOnce_eq_ok.2 fetched) (List.cons_ne_nil _ _) (.nothing s')
    · have nonempty : page ≠ [] := List.ne_nil_of_length_pos (by omega)
      rw [if_neg full] at fetched
      have filled' := filled.perm still
      have facing : rest.Perm ((mark.behind page).facing before (table s')) :=
        (behind nonempty).trans (still.symm.filter _)
      have fewer : ((mark.behind page).facing before (table s')).length < count := by
        have all := perm.length_eq
        have left := facing.length_eq
        have some := List.length_pos_of_ne_nil nonempty
        rw [List.length_append] at all
        omega
      have plain : Plain (mark.behind page).after :=
        Mark.plain_behind (fun post member => filled.plain post (selects.own member).1) after
      obtain ⟨posts, final, held', still', more⟩ :=
        ih (mark.behind page) filled' positive fits user plain fewer
      refine ⟨page ++ posts, final, ?_, still'.trans still, ?_⟩
      · exact ((held'.trans facing.symm).append_left page).trans perm
      · rw [List.map_append]
        exact .page (Cursor.atOnce_eq_ok.2 fetched) (mt List.map_eq_nil_iff.1 nonempty) more

/-- A listing gives the posts that the catalogue has for the user, each once. -/
theorem listAll_store (executes : engine.Executes before earliest table)
    (filled : Filled held (table s)) {pageSize : Nat} (fits : pageSize < 2 ^ 63)
    {bound : Mark → σ → Nat} (room : ∀ mark s, (table s).length ≤ bound mark s) {user : String}
    (plain : Plain user) :
    ∃ posts s', Service.listAll (storeOver engine.serve pageSize bound) user s = (.ok posts, s') ∧
      Filled held (table s') ∧ posts.Nodup ∧
        ∀ post, post ∈ posts ↔ held user post.id = some post := by
  obtain ⟨posts, final, perm, still, ahead⟩ := ahead_of_facing executes _
    { user := user, pageSize := max 1 pageSize } filled
    (Nat.lt_of_lt_of_le Nat.zero_lt_one (Nat.le_max_left 1 pageSize))
    (Nat.max_lt.2 ⟨by decide, fits⟩) plain (by decide : Plain "") (Nat.lt_succ_self _)
  have member : ∀ post, post ∈ posts ↔ held user post.id = some post := by
    intro post
    rw [mem_sorted perm, filled.holds]
    constructor
    · rintro ⟨here, rfl, -⟩
      exact ⟨here, rfl⟩
    · rintro ⟨here, key⟩
      exact ⟨here, (Prod.mk.inj key).1, executes.collates.least (filled.proper.named post here)⟩
  have once : posts.Nodup :=
    perm.nodup_iff.2 ((List.Nodup.of_map keyOf filled.proper.keys).filter _)
  have decoded : (posts.map Row.ofPost).map decode = posts.map .ok := by
    rw [List.map_map]
    refine List.map_congr_left fun post here => decode_ofPost ?_
    exact filled.proper.keepable post ((mem_sorted perm).1 here).1
  have enough : posts.length ≤ (storeOver engine.serve pageSize bound).feed.pending
      { mark := some { user := user, pageSize := max 1 pageSize } } s := by
    have part := List.length_filter_le
      (fun post => decide (post.user = user) && before "" post.id) (table s)
    have all := perm.length_eq
    have fewer := room { user := user, pageSize := max 1 pageSize } s
    rw [all]
    simp only [storeOver, Cursor.feed, List.length_nil, Mark.facing]
    omega
  have left : Cursor.Left (Cursor.atOnce fun mark => converseWith engine.serve (fetchPage mark))
      { mark := some { user := user, pageSize := max 1 pageSize } } s (posts.map Row.ofPost)
      final := ⟨rfl, _, rfl, ahead⟩
  obtain ⟨given, ended⟩ := left.collect decode bound decoded enough
  exact ⟨posts, final, Service.listAll_of_collect (storeOver engine.serve pageSize bound) rfl given
    ended, filled.perm still, once, member⟩

end Serving

/-! ## Agreement -/

/-- While a second is left for every call, the store in memory finds a time for every change. -/
theorem memory_inTime {latest : Int} (calls : List Call) :
    ∀ {held : Catalogue} {memory : Memory} {second : Int}, Memory.Shows held memory →
      held.Until second → latest ≤ second → second + calls.length < Instant.lastSecond →
      (∀ call ∈ calls, ∀ clock ∈ call.clock?, clock.seconds ≤ latest) →
      ∀ outcome ∈ replies Memory.store.outcome calls memory,
        outcome.2 ≠ .error .noLaterInstant := by
  induction calls with
  | nil => exact fun _ _ _ _ _ _ member => absurd member List.not_mem_nil
  | cons call calls ih =>
    intro held memory second shown before soon left reading outcome member
    rw [List.length_cons, Int.natCast_succ] at left
    obtain ⟨given, shown'⟩ := Memory.follows call held memory shown trivial
    rcases List.mem_cons.1 member with rfl | later
    · intro late
      refine Service.answered_of_until before (by omega) given ?_
      have first : (Memory.store.complete call memory).1 = .error .noLaterInstant := late
      rw [first]
      cases call <;> rfl
    · have now : ∀ clock ∈ call.clock?, clock.seconds ≤ second := fun clock read =>
        (reading call List.mem_cons_self clock read).trans soon
      refine ih shown' (Service.until_after before now) (by omega) (by omega) ?_ outcome later
      exact fun other member => reading other (List.mem_cons_of_mem call member)

section Agreement

variable {σ : Type} {engine : Engine σ} {before : String → String → Bool} {earliest : Instant}
  {table : σ → List Post} {pageSize : Nat} {bound : Mark → σ → Nat}

section Executing

variable (executes : engine.Executes before earliest table) (fits : pageSize < 2 ^ 63)
  (room : ∀ mark s, (table s).length ≤ bound mark s)

include executes fits room

/-- **The store in a database follows what its table holds.** -/
theorem follows :
    (storeOver engine.serve pageSize bound).Follows
      (fun call s => Sendable earliest call ∧ Permits (heldIn (table s)) call)
      (fun held s => Filled held (table s)) := by
  rintro call held s filled ⟨sendable, permits⟩
  rw [filled.heldIn_eq] at permits
  cases call with
  | create user data fresh =>
    let post := Post.make user data fresh
    have new : held post.user post.id = none := permits
    obtain ⟨s', after, talk⟩ := converse_insert executes filled new
      (sendable.named fresh.id rfl) (sendable.admitted rfl)
    have outcome : (storeOver engine.serve pageSize bound).serve (.create user data fresh) s =
        (.ok (Post.make user data fresh), s') := talk (Post.make user data fresh)
    rw [Store.complete, outcome]
    exact ⟨rfl, after⟩
  | read user id =>
    obtain ⟨s', talk, after⟩ := converse_select executes filled (sendable.admitted rfl)
    have outcome : (storeOver engine.serve pageSize bound).serve (.read user id) s =
        (held.lookup user id, s') := talk
    rw [Store.complete, outcome]
    exact ⟨rfl, after⟩
  | readAll user =>
    obtain ⟨posts, s', listed, after, once, all⟩ :=
      listAll_store executes filled fits room (sendable.texts user List.mem_cons_self)
    rw [Store.complete, listed]
    exact ⟨⟨posts, rfl, once, all⟩, after⟩
  | update user id data clock =>
    obtain ⟨s', talk, after⟩ := converse_update executes filled permits (sendable.admitted rfl)
    have outcome : (storeOver engine.serve pageSize bound).serve (.update user id data clock) s =
        (held.change user id data clock, s') := talk
    rw [Store.complete, outcome]
    exact ⟨rfl, after⟩
  | delete user id =>
    obtain ⟨s', after, talk⟩ := converse_delete executes filled (sendable.admitted rfl)
    have outcome : (storeOver engine.serve pageSize bound).serve (.delete user id) s =
        (.ok (), s') := talk
    rw [Store.complete, outcome]
    exact ⟨rfl, after⟩

/-- Calls whose identifiers differ meet new keys, and later times as long as the store in memory
finds them. -/
theorem within (calls : List Call) :
    ∀ {held : Catalogue} {used : List String} {s : σ} {memory : Memory}, Filled held (table s) →
      Memory.Shows held memory → Dated held used [] → (calls.filterMap Call.freshId?).Nodup →
      (∀ id ∈ calls.filterMap Call.freshId?, id ∉ used) →
      (∀ call ∈ calls, Sendable earliest call) →
      (∀ outcome ∈ replies Memory.store.outcome calls memory,
        outcome.2 ≠ .error .noLaterInstant) →
      (storeOver engine.serve pageSize bound).Within
        (fun call s => Sendable earliest call ∧ Permits (heldIn (table s)) call) calls s := by
  induction calls with
  | nil => exact fun _ _ _ _ _ _ _ => trivial
  | cons call calls ih =>
    intro held used s memory filled shown dated once fresh sendable inTime
    obtain ⟨here, once', later⟩ := Call.freshIds_cons once fresh
    obtain ⟨given, shown'⟩ := Memory.follows call held memory shown trivial
    have answered := inTime _ List.mem_cons_self
    have permits : Permits held call := by
      cases call with
      | create user data fresh' =>
        refine Option.eq_none_iff_forall_ne_some.2 fun post found => ?_
        exact here fresh'.id rfl (dated.used_held user fresh'.id post found)
      | update user id data clock => exact fun late => answered (given.trans late)
      | read => trivial
      | readAll => trivial
      | delete => trivial
    have scope := And.intro (sendable call List.mem_cons_self) (filled.heldIn_eq.symm ▸ permits)
    obtain ⟨-, filled'⟩ := follows executes fits room call held s filled scope
    refine ⟨scope, ih filled' shown' (dated.after call here) once' later ?_ ?_⟩
    · exact fun other member => sendable other (List.mem_cons_of_mem call member)
    · exact fun outcome member => inTime outcome (List.mem_cons_of_mem _ member)

end Executing

/-- **The store in a database gives, call by call, what the store in memory gives**, but for the
order of listings: whatever server executes its statements, whatever collation it sorts by and
however many rows a page has.  Identifiers that are made up are not empty and differ, the server
takes the texts and clock readings of the calls, and the store in memory finds a time for every
change, which it does unless the clock comes as close to the end of the time line as one second for
every call. -/
theorem table_agrees_with_memory (executes : engine.Executes before earliest table)
    (fits : pageSize < 2 ^ 63) (room : ∀ mark s, (table s).length ≤ bound mark s)
    (calls : List Call) (s : σ) (empty : table s = [])
    (sendable : ∀ call ∈ calls, Sendable earliest call)
    (once : (calls.filterMap Call.freshId?).Nodup) :
    ((∀ outcome ∈ replies Memory.store.outcome calls {}, outcome.2 ≠ .error .noLaterInstant) →
      List.Forall₂ Alike (replies (storeOver engine.serve pageSize bound).outcome calls s)
        (replies Memory.store.outcome calls {})) ∧
    ∀ latest : Int, latest + calls.length < Instant.lastSecond →
      (∀ call ∈ calls, ∀ clock ∈ call.clock?, clock.seconds ≤ latest) →
      ∀ outcome ∈ replies Memory.store.outcome calls {}, outcome.2 ≠ .error .noLaterInstant := by
  constructor
  · intro inTime
    have filled : Filled (fun _ _ => none) (table s) := empty ▸ filled_empty
    exact (follows executes fits room).alike Memory.follows calls filled Memory.shows_empty
      (within executes fits room calls filled Memory.shows_empty dated_empty once
        (fun _ _ => List.not_mem_nil) sendable inTime)
      (Store.within_true Memory.store calls {})
  · exact fun latest left reading => memory_inTime calls Memory.shows_empty
      (fun _ _ _ found => nomatch found) (Int.le_refl latest) left reading

end Agreement

/-- A clock five seconds into 1970. -/
def laterReading : ClockReading := ⟨⟨5, 0, by decide, Instant.epoch.fine⟩, by decide⟩

/-- Three posts of a user, which make two pages of two.  One is changed while the clock stands still
and again after it has jumped back, one is dropped, and one is not there. -/
def shopping : List Call :=
  [.create "a" "tea" ⟨"c", laterReading⟩, .create "a" "milk" ⟨"b", .epoch⟩,
    .create "a" "salt" ⟨"a", .epoch⟩, .update "a" "c" "more tea" laterReading,
    .readAll "a", .update "a" "c" "most tea" .epoch, .delete "a" "b", .read "a" "c",
    .update "a" "b" "oat milk" .epoch, .readAll "a"]

/-- Over the table in memory, in pages of two, with times that start in 1970. -/
theorem table_agrees_with_memory_shopping :
    Table.engine.Executes Table.before .epoch (fun posts => posts) ∧
      (∀ call ∈ shopping, Sendable .epoch call) ∧ (shopping.filterMap Call.freshId?).Nodup ∧
      (∀ outcome ∈ replies Memory.store.outcome shopping {}, outcome.2 ≠ .error .noLaterInstant) ∧
      List.Forall₂ Alike
        (replies (storeOver Table.engine.serve 2 fun _ posts => posts.length).outcome shopping [])
        (replies Memory.store.outcome shopping {}) := by
  have executes := Table.executes .epoch
  have fits : 2 < 2 ^ 63 := by decide
  have sendable : ∀ call ∈ shopping, Sendable .epoch call := by decide
  have once : (shopping.filterMap Call.freshId?).Nodup := by decide
  have left : (5 : Int) + shopping.length < Instant.lastSecond := by decide
  have reading : ∀ call ∈ shopping, ∀ clock ∈ call.clock?, clock.seconds ≤ 5 := by decide
  obtain ⟨agrees, unhurried⟩ := table_agrees_with_memory executes fits
    (fun _ posts => Nat.le_refl posts.length) shopping [] rfl sendable once
  have inTime := unhurried 5 left reading
  exact ⟨executes, sendable, once, inTime, agrees inTime⟩

end Postgres

end PostStore
