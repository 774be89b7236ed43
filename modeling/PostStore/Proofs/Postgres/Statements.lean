import PostStore.Proofs.Postgres.Table
/-!
# What statements mean

A database is sent text: a statement goes to it as its text, with parameters by their places.  Here
is what the texts of the store mean for a table of posts, whatever server executes them.  Nothing is
said about statements with parameters that a server would not take, and the order of the rows in the
table is left to the server.
-/

namespace PostStore.Postgres

/-! ## Times -/

/-- A microsecond later is the next number of microseconds. -/
theorem Tellable.addMicro? {t : Instant} (tellable : Tellable t) :
    t.addMicro? = Instant.ofMicros? (t.toMicros + 1) := by
  obtain ⟨whole, plain⟩ := tellable
  unfold Instant.WholeMicros at whole
  have second : (t.toMicros + 1) / 1000000 =
      if t.nanos + 1000 < 1000000000 then t.seconds else t.seconds + 1 := by
    unfold Instant.toMicros
    split <;> omega
  have fraction : ((t.toMicros + 1) % 1000000).toNat * 1000 =
      if t.nanos + 1000 < 1000000000 then t.nanos + 1000 else t.nanos + 1000 - 1000000000 := by
    unfold Instant.toMicros
    split <;> omega
  simp only [Instant.addMicro?, if_pos plain, Instant.ofMicros?, second, fraction]
  split <;> rfl

/-- A time that a column can tell has no digits below a microsecond. -/
theorem Tellable.truncateToMicros {t : Instant} (tellable : Tellable t) :
    t.truncateToMicros = t := by
  have whole : t.nanos % 1000 = 0 := tellable.whole
  simp only [Instant.truncateToMicros, whole, Nat.sub_zero]

/-- Times that a column can tell are in order as their microseconds are. -/
theorem Tellable.lt_iff {t t' : Instant} (tellable : Tellable t) (tellable' : Tellable t') :
    t < t' ↔ t.toMicros < t'.toMicros := by
  obtain ⟨whole, plain⟩ := tellable
  obtain ⟨whole', plain'⟩ := tellable'
  unfold Instant.WholeMicros at whole whole'
  unfold Instant.toMicros
  rw [Instant.lt_def]
  omega

/-- The instant of a number of microseconds, if there is one, has that number. -/
theorem tellable_of_ofMicros? {micros : Int} {t : Instant} (h : Instant.ofMicros? micros = some t) :
    Tellable t ∧ t.toMicros = micros := by
  obtain ⟨seconds, nanos⟩ := Instant.ofParts?_eq_some h
  refine ⟨⟨?_, ?_⟩, ?_⟩
  · unfold Instant.WholeMicros
    omega
  · omega
  · unfold Instant.toMicros
    omega

/-- Between two instants of the time line there is no number of microseconds without an instant. -/
theorem exists_ofMicros? {t t' : Instant} {micros : Int} (low : t.toMicros ≤ micros)
    (high : micros ≤ t'.toMicros) (plain : t'.nanos < 1000000000) :
    ∃ later, Instant.ofMicros? micros = some later := by
  obtain ⟨first, -⟩ := t.bounded
  obtain ⟨-, last⟩ := t'.bounded
  unfold Instant.toMicros at low high
  refine ⟨⟨micros / 1000000, (micros % 1000000).toNat * 1000, ?_, ?_⟩, dif_pos ⟨?_, ?_⟩⟩ <;> omega

/-- What `GREATEST($2, updated_at + interval '1 microsecond')` gives, if the time line has it. -/
def greatest? (time updatedAt : Instant) : Option Instant :=
  Instant.ofMicros? (max time.toMicros (updatedAt.toMicros + 1))

/-- **The statement dates a change as the store in memory does.** -/
theorem greatest?_eq_next? {t clock : Instant} (tellable : Tellable t)
    (read : Tellable clock.truncateToMicros) :
    greatest? clock.truncateToMicros t = t.next? clock := by
  rw [greatest?, Instant.next?, tellable.addMicro?]
  cases follows : Instant.ofMicros? (t.toMicros + 1) with
  | none =>
    -- then the clock cannot be later, for it would be behind the end of the time line
    rcases Int.le_total clock.truncateToMicros.toMicros (t.toMicros + 1) with early | late
    · rw [max_eq_right early, follows]
      rfl
    · have low : t.toMicros ≤ t.toMicros + 1 := by omega
      obtain ⟨later, here⟩ := exists_ofMicros? low late read.plain
      rw [here] at follows
      cases follows
  | some floor =>
    obtain ⟨exact, micros⟩ := tellable_of_ofMicros? follows
    rw [Option.map_some]
    split
    · rename_i late
      rw [exact.lt_iff read, micros] at late
      rw [max_eq_left (Int.le_of_lt late), read.ofMicros?]
    · rename_i early
      rw [exact.lt_iff read, micros, Int.not_lt] at early
      rw [max_eq_right early, follows]

/-! ## Meanings -/

/-- What a statement means for a table of posts: in which tables that is said, which rows it gives,
and which table it leaves, up to the order of its rows. -/
structure Meaning where
  applies : List Post → Prop := fun _ => True
  gives : List Post → List Row → Prop
  leaves : List Post → List Post := id

/-- The posts with `user_id = .. AND post_id = ..`. -/
def under (user id : String) (table : List Post) : List Post :=
  table.filter fun post => keyOf post = (user, id)

/-- The post after `SET data = .., updated_at = GREATEST(..)`, if the time line has the time. -/
def set? (data : String) (time : Instant) (post : Post) : Option Post :=
  (greatest? time post.updatedAt).map fun later => { post with data := data, updatedAt := later }

/-- **The statement changes a post as the store in memory does.** -/
theorem set?_eq_withData? {post : Post} (keepable : Keepable post) {clock : Instant}
    (read : Tellable clock.truncateToMicros) (data : String) :
    set? data clock.truncateToMicros post = post.withData? data clock := by
  rw [set?, greatest?_eq_next? keepable.updated read]
  rfl

/-- A post that is set has the same key, and times that a column can tell. -/
theorem Keepable.set? {post changed : Post} {data : String} {time : Instant}
    (keepable : Keepable post) (h : set? data time post = some changed) :
    keyOf changed = keyOf post ∧ Keepable changed := by
  obtain ⟨later, follows, rfl⟩ := Option.map_eq_some_iff.1 h
  exact ⟨rfl, keepable.created, (tellable_of_ofMicros? follows).1⟩

namespace Meaning

/-- A post is inserted under a new key. -/
def insert (post : Post) : Meaning where
  applies table := keyOf post ∉ table.map keyOf
  gives _ rows := rows = []
  leaves table := table ++ [post]

/-- The posts under a key are selected. -/
def select (user id : String) : Meaning where
  gives table rows := rows.Perm ((under user id table).map Row.ofPost)

/-- The posts of a user behind an identifier are selected, in order and up to a limit. -/
def selectPage (before : String → String → Bool) (user after : String) (limit : Int) : Meaning where
  applies _ := 0 ≤ limit
  gives table rows := ∃ page, Selects before table user after limit page ∧
    rows = page.map Row.ofPost

/-- The posts under a key are changed, and their new rows are given back. -/
def update (data : String) (time : Instant) (user id : String) : Meaning where
  applies table := ∀ post ∈ under user id table, (set? data time post).isSome
  gives table rows := rows.Perm (((under user id table).filterMap (set? data time)).map Row.ofPost)
  leaves table := table.map fun post =>
    if keyOf post = (user, id) then (set? data time post).getD post else post

/-- The posts under a key are deleted. -/
def delete (user id : String) : Meaning where
  gives _ rows := rows = []
  leaves table := table.filter fun post => keyOf post ≠ (user, id)

end Meaning

/-- The meaning of a statement of the store.  Of making the table nothing is said. -/
def Statement.meaning (before : String → String → Bool) : Statement → Meaning
  | .createTable => { applies := fun _ => False, gives := fun _ _ => False }
  | .insert post => .insert post
  | .select user id => .select user id
  | .selectPage user after limit => .selectPage before user after limit
  | .update data time user id => .update data time user id
  | .delete user id => .delete user id

/-! ## Servers -/

/-- A server of a database: how it connects, and how it executes a text with parameters. -/
structure Engine (σ : Type) where
  connect : σ → Except String Unit × σ
  execute : String → List Parameter → σ → Except String (List Row) × σ

/-- A text without the character zero, which no column of text can keep. -/
def Plain (text : String) : Prop := '\x00' ∉ text.toList

instance (text : String) : Decidable (Plain text) :=
  inferInstanceAs (Decidable ('\x00' ∉ text.toList))

/-- Whether a server whose times start at some instant takes a parameter. -/
def Parameter.Admitted (earliest : Instant) : Parameter → Prop
  | .text value => Plain value
  | .time value => Tellable value ∧ earliest ≤ value
  | .number value => -9223372036854775808 ≤ value ∧ value < 9223372036854775808

instance (t : Instant) : Decidable (Tellable t) :=
  decidable_of_iff (t.WholeMicros ∧ t.nanos < 1000000000)
    ⟨fun both => ⟨both.1, both.2⟩, fun tellable => ⟨tellable.whole, tellable.plain⟩⟩

instance (earliest : Instant) : (parameter : Parameter) → Decidable (parameter.Admitted earliest)
  | .text value => inferInstanceAs (Decidable (Plain value))
  | .time value => inferInstanceAs (Decidable (Tellable value ∧ earliest ≤ value))
  | .number value => inferInstanceAs
    (Decidable (-9223372036854775808 ≤ value ∧ value < 9223372036854775808))

@[simp]
theorem admitted_text {earliest : Instant} {value : String} :
    (Parameter.text value).Admitted earliest ↔ Plain value := Iff.rfl

namespace Engine

variable {σ : Type} (engine : Engine σ)

/-- Statements are executed as their texts and parameters. -/
def serve : (question : Ask) → σ → question.Reply × σ
  | .connect, s => engine.connect s
  | .execute statement, s => engine.execute statement.text statement.parameters s

/-- A text with parameters has a meaning: on a proper table to which the meaning applies, and with
parameters that the server takes, that is what is done. -/
def Means (earliest : Instant) (table : σ → List Post) (text : String)
    (parameters : List Parameter) (meaning : Meaning) : Prop :=
  ∀ s, Proper (table s) → meaning.applies (table s) →
    (∀ parameter ∈ parameters, parameter.Admitted earliest) →
      ∃ rows s', engine.execute text parameters s = (.ok rows, s') ∧
        meaning.gives (table s) rows ∧ (table s').Perm (meaning.leaves (table s))

/-- A server can be reached and executes the statements of the store, by their texts, on its
table. -/
structure Executes (before : String → String → Bool) (earliest : Instant)
    (table : σ → List Post) : Prop where
  collates : Collates before
  connect : ∀ s, ∃ s', engine.connect s = (.ok (), s') ∧ (table s').Perm (table s)
  insert : ∀ user id data createdAt updatedAt, engine.Means earliest table
    ("INSERT INTO post (user_id, post_id, data, created_at, updated_at) " ++
      "VALUES ($1, $2, $3, $4, $5)")
    [.text user, .text id, .text data, .time createdAt, .time updatedAt]
    (.insert ⟨user, id, data, createdAt, updatedAt⟩)
  select : ∀ user id, engine.Means earliest table
    ("SELECT user_id, post_id, data, created_at, updated_at " ++
      "FROM post WHERE user_id = $1 AND post_id = $2")
    [.text user, .text id] (.select user id)
  selectPage : ∀ user after limit, engine.Means earliest table
    ("SELECT user_id, post_id, data, created_at, updated_at " ++
      "FROM post WHERE user_id = $1 AND post_id > $2 ORDER BY post_id LIMIT $3")
    [.text user, .text after, .number limit] (.selectPage before user after limit)
  update : ∀ data time user id, engine.Means earliest table
    ("UPDATE post SET data = $1, updated_at = GREATEST($2, updated_at + " ++
      "interval '1 microsecond') " ++
      "WHERE user_id = $3 AND post_id = $4 " ++
      "RETURNING user_id, post_id, data, created_at, updated_at")
    [.text data, .time time, .text user, .text id] (.update data time user id)
  delete : ∀ user id, engine.Means earliest table
    "DELETE FROM post WHERE user_id = $1 AND post_id = $2"
    [.text user, .text id] (.delete user id)

variable {engine} in
/-- Every statement of the store is executed as it is meant. -/
theorem Executes.means {before : String → String → Bool} {earliest : Instant}
    {table : σ → List Post} (executes : engine.Executes before earliest table)
    (statement : Statement) :
    engine.Means earliest table statement.text statement.parameters
      (statement.meaning before) := by
  cases statement with
  | createTable => exact fun _ _ never => never.elim
  | insert post => exact executes.insert _ _ _ _ _
  | select user id => exact executes.select user id
  | selectPage user after limit => exact executes.selectPage user after limit
  | update data time user id => exact executes.update data time user id
  | delete user id => exact executes.delete user id

end Engine

/-! ## Proper tables -/

section Proper

variable {posts posts' : List Post} {user id data : String} {time : Instant} {post changed : Post}

/-- The order of the posts does not matter. -/
theorem Proper.perm (proper : Proper posts) (perm : posts'.Perm posts) : Proper posts' where
  keys := (perm.map keyOf).nodup_iff.2 proper.keys
  named post member := proper.named post (perm.subset member)
  keepable post member := proper.keepable post (perm.subset member)

/-- Under a key is the post that the table holds there. -/
theorem Proper.under_eq (proper : Proper posts) (user id : String) :
    under user id posts = (heldIn posts user id).toList := by
  have once : (under user id posts).Nodup := (List.Nodup.of_map keyOf proper.keys).filter _
  have member : ∀ post, post ∈ under user id posts ↔ heldIn posts user id = some post := by
    intro post
    rw [under, List.mem_filter, decide_eq_true_eq, proper.heldIn_iff, keyOf, Prod.mk.injEq]
  cases found : heldIn posts user id with
  | none =>
    refine List.eq_nil_iff_forall_not_mem.2 fun post here => ?_
    rw [member, found] at here
    cases here
  | some post =>
    refine List.perm_singleton.1 ((List.perm_ext_iff_of_nodup once (List.nodup_singleton _)).2 ?_)
    intro other
    rw [member, found, Option.some_inj, List.mem_singleton, eq_comm]

/-- Where the table holds nothing, an update changes nothing. -/
theorem Proper.leaves_update_none (proper : Proper posts) (absent : heldIn posts user id = none) :
    (Meaning.update data time user id).leaves posts = posts := by
  have nothing := proper.under_eq user id
  rw [absent, Option.toList_none, under, List.filter_eq_nil_iff] at nothing
  have same : ∀ post ∈ posts,
      (if keyOf post = (user, id) then (set? data time post).getD post else post) = post :=
    fun post member => if_neg (mt decide_eq_true (nothing post member))
  exact (List.map_congr_left same).trans (List.map_id' posts)

/-- Where the table holds a post, an update puts the changed post in its place. -/
theorem Proper.leaves_update_some (proper : Proper posts) (found : heldIn posts user id = some post)
    (changes : set? data time post = some changed) :
    (Meaning.update data time user id).leaves posts =
      posts.map fun other => if keyOf other = keyOf post then changed else other := by
  obtain ⟨-, key⟩ := heldIn_own found
  refine List.map_congr_left fun other member => ?_
  rw [key]
  split
  · rename_i same
    have here := proper.heldIn_iff.2 ⟨member, Prod.mk.inj same⟩
    obtain rfl := Option.some.inj (found.symm.trans here)
    rw [changes, Option.getD_some]
  · rfl

end Proper

/-! ## The table in memory -/

namespace Table

/-- The statements that have some parameters. -/
def candidates : List Parameter → List Statement
  | [.text user, .text id, .text data, .time createdAt, .time updatedAt] =>
    [.insert ⟨user, id, data, createdAt, updatedAt⟩]
  | [.text user, .text id] => [.select user id, .delete user id]
  | [.text user, .text after, .number limit] => [.selectPage user after limit]
  | [.text data, .time time, .text user, .text id] => [.update data time user id]
  | _ => [.createTable]

/-- The table in memory as a server that reads the texts of statements. -/
def engine : Engine Table where
  connect table := (.ok (), table)
  execute text parameters table :=
    match (candidates parameters).find? fun statement => statement.text = text with
    | none => (.error Server.errorMessage, table)
    | some statement => serve (.execute statement) table

/-- A statement is known from its text and its parameters. -/
theorem engine_execute (statement : Statement) (table : Table) :
    engine.execute statement.text statement.parameters table =
      serve (.execute statement) table := by
  have known : (candidates statement.parameters).find?
      (fun other => other.text = statement.text) = some statement := by
    cases statement with
    | delete user id =>
      have differ : (Statement.select user id).text ≠ (Statement.delete user id).text := by
        show (Statement.select "" "").text ≠ (Statement.delete "" "").text
        decide +kernel
      simp [candidates, Statement.parameters, differ]
    | createTable => simp [candidates, Statement.parameters]
    | insert post => simp [candidates, Statement.parameters]
    | select user id => simp [candidates, Statement.parameters]
    | selectPage user after limit => simp [candidates, Statement.parameters]
    | update data time user id => simp [candidates, Statement.parameters]
  simp only [engine, known]

section Executing

variable {earliest : Instant}

/-- What the table does for a statement is what its text means. -/
theorem means_of_serve (statement : Statement) {meaning : Meaning}
    (does : ∀ posts : Table, Proper posts → meaning.applies posts →
      (∀ parameter ∈ statement.parameters, parameter.Admitted earliest) →
        ∃ rows posts', serve (.execute statement) posts = (.ok rows, posts') ∧
          meaning.gives posts rows ∧ posts'.Perm (meaning.leaves posts)) :
    engine.Means earliest (fun posts => posts) statement.text statement.parameters meaning := by
  intro posts proper applies admitted
  rw [engine_execute]
  exact does posts proper applies admitted

theorem means_insert (post : Post) :
    engine.Means earliest (fun posts => posts) (Statement.insert post).text
      (Statement.insert post).parameters (.insert post) := by
  refine means_of_serve _ fun posts _ new admitted => ?_
  have created : Tellable post.createdAt := (admitted (.time _) (by simp [Statement.parameters])).1
  have updated : Tellable post.updatedAt := (admitted (.time _) (by simp [Statement.parameters])).1
  have kept : kept? post = some post := by
    simp [kept?, columnTime?, created.ofMicros?, updated.ofMicros?]
  refine ⟨[], posts ++ [post], ?_, rfl, .refl _⟩
  simp only [serve, kept]
  exact if_neg new

theorem means_select (user id : String) :
    engine.Means earliest (fun posts => posts) (Statement.select user id).text
      (Statement.select user id).parameters (.select user id) :=
  means_of_serve _ fun posts proper _ _ =>
    ⟨_, posts, rfl, .of_eq (congrArg _ (proper.under_eq user id).symm), .refl posts⟩

theorem means_selectPage (user after : String) (limit : Int) :
    engine.Means earliest (fun posts => posts) (Statement.selectPage user after limit).text
      (Statement.selectPage user after limit).parameters (.selectPage before user after limit) :=
  means_of_serve _ fun posts _ _ _ =>
    ⟨_, posts, rfl, selectsPages.selectPage user after limit posts _ posts rfl, .refl posts⟩

theorem means_update (data : String) (time : Instant) (user id : String) :
    engine.Means earliest (fun posts => posts) (Statement.update data time user id).text
      (Statement.update data time user id).parameters (.update data time user id) := by
  refine means_of_serve _ fun posts proper inTime admitted => ?_
  have read : Tellable time := (admitted (.time time) (by simp [Statement.parameters])).1
  have single := proper.under_eq user id
  cases found : heldIn posts user id with
  | none =>
    rw [found, Option.toList_none] at single
    refine ⟨[], (Meaning.update data time user id).leaves posts, ?_, ?_, .refl _⟩
    · simp only [serve, found, proper.leaves_update_none found]
    · simp [Meaning.update, single]
  | some post =>
    rw [found, Option.toList_some] at single
    obtain ⟨member, -⟩ := heldIn_own found
    obtain ⟨changed, changes⟩ := Option.isSome_iff_exists.1
      (inTime post (single ▸ List.mem_singleton_self post))
    have same : changed? post data time = some changed := by
      have keepable := proper.keepable post member
      have next := set?_eq_withData? keepable (read.truncateToMicros.symm ▸ read) data
      rw [read.truncateToMicros, changes] at next
      rw [changed?, columnTime?, read.ofMicros?]
      exact next.symm
    refine ⟨[Row.ofPost changed], (Meaning.update data time user id).leaves posts, ?_, ?_, .refl _⟩
    · simp only [serve, found, same, proper.leaves_update_some found changes]
    · simp [Meaning.update, single, changes]

theorem means_delete (user id : String) :
    engine.Means earliest (fun posts => posts) (Statement.delete user id).text
      (Statement.delete user id).parameters (.delete user id) :=
  means_of_serve _ fun _ _ _ _ => ⟨[], _, rfl, rfl, .refl _⟩

/-- **The table in memory executes what the store sends**, whenever its times start. -/
theorem executes (earliest : Instant) : engine.Executes before earliest fun posts => posts where
  collates := collates
  connect posts := ⟨posts, rfl, .refl posts⟩
  insert user id data createdAt updatedAt := means_insert ⟨user, id, data, createdAt, updatedAt⟩
  select := means_select
  selectPage := means_selectPage
  update := means_update
  delete := means_delete

end Executing

end Table

end PostStore.Postgres
