import Mathlib.Data.List.Pairwise
import PostStore.Proofs.Agreement
import PostStore.Proofs.Digest
import PostStore.Proofs.Lmdb.Pages
/-!
# The store of documents in a file agrees with the store in memory

A file at rest shows the catalogue of what it holds.  As long as no two names have the same digest
and there is room for the documents, every call gives what that catalogue gives, and files or drops
the document of the one post that the call files or drops in the catalogue.
-/

namespace PostStore

/-- The names that a call uses: users and identifiers of posts. -/
def Call.names : Call → List String
  | .create user _ fresh => [user, fresh.id]
  | .read user id | .update user id _ _ | .delete user id => [user, id]
  | .readAll user => [user]

theorem Call.names_pair {names : Set String} {user id : String}
    (known : ∀ name ∈ [user, id], name ∈ names) : user ∈ names ∧ id ∈ names :=
  ⟨known user List.mem_cons_self, known id (List.mem_cons_of_mem user List.mem_cons_self)⟩

/-- The names that some calls use. -/
def Call.namesOf (calls : List Call) : Set String := fun name => ∃ call ∈ calls, name ∈ call.names

namespace Catalogue

/-- The post that a call files, if it files one. -/
def filed (held : Catalogue) : Call → Option Post
  | .create user data fresh => some (Post.make user data fresh)
  | .update user id data clock => (held.change user id data clock).toOption
  | .read .. | .readAll _ | .delete .. => none

theorem after_of_filed {held : Catalogue} {call : Call} {post : Post}
    (files : held.filed call = some post) : held.after call = held.file post := by
  cases call with
  | create user data fresh =>
    obtain rfl := Option.some.inj files
    rfl
  | update user id data clock =>
    have changed := Lmdb.Entries.toOption_eq_some.1 files
    rw [after, changed, afterChange]
  | read => cases files
  | readAll => cases files
  | delete => cases files

end Catalogue

namespace Lmdb

/-! ## Files that show a catalogue -/

/-- A file at rest in which every document is filed right under names among those given. -/
structure Sound (names : Set String) (env : Environment) : Prop where
  settled : env.draft = none
  stocked : env.entries.Stocked names

/-- A file shows a catalogue when it is sound, its reader slot is free, and it holds what the
catalogue does. -/
structure Shows (names : Set String) (held : Catalogue) (env : Environment) : Prop where
  sound : Sound names env
  free : env.readerHeld = false
  holds : env.entries.held = held

/-- An empty file holds nothing. -/
theorem shows_empty (names : Set String) (capacity : Nat) :
    Shows names (fun _ _ => none) { capacity := capacity } :=
  ⟨⟨rfl, .nil⟩, rfl, rfl⟩

/-- Whether the document that a call files, if it files one, fits in beside what is there. -/
def HasRoom (call : Call) (env : Environment) : Prop :=
  ∀ post ∈ env.entries.held.filed call, env.entries.size + post.toDocument.length ≤ env.capacity

/-- The entries after a call. -/
def Entries.after (entries : Entries) (call : Call) : Entries :=
  match entries.held.filed call, call with
  | some post, _ => entries.insert (postKey post.user post.id) post.toDocument
  | none, .delete user id => entries.erase (postKey user id)
  | none, _ => entries

section Calls

variable {names : Set String} {held : Catalogue} {env : Environment}

/-- What is held is filed under its own user and identifier. -/
theorem Entries.held_own {entries : Entries} {user id : String} {post : Post}
    (found : entries.held user id = some post) : post.user = user ∧ post.id = id :=
  Coordinator.owns_iff.1 (Option.filter_eq_some_iff.1 found).2

/-- A change keeps the names. -/
theorem Entries.change_own {entries : Entries} {user id data : String} {clock : ClockReading}
    {changed : Post} (given : entries.held.change user id data clock = .ok changed) :
    changed.user = user ∧ changed.id = id := by
  obtain ⟨post, found, later⟩ := Catalogue.change_eq_ok given
  obtain ⟨rfl, rfl⟩ := Entries.held_own found
  obtain ⟨hu, hi, _⟩ := Post.withData?_identity later
  exact ⟨hu, hi⟩

/-- The names of a post that a call files are those of the call. -/
theorem Entries.names_of_filed {entries : Entries} {call : Call} {post : Post}
    (files : entries.held.filed call = some post) :
    post.user ∈ call.names ∧ post.id ∈ call.names := by
  cases call with
  | create user data fresh =>
    obtain rfl := Option.some.inj files
    simp [Call.names, Post.make]
  | update user id data clock =>
    obtain ⟨rfl, rfl⟩ := Entries.change_own (Entries.toOption_eq_some.1 files)
    simp [Call.names]
  | read => cases files
  | readAll => cases files
  | delete => cases files

/-- A post that a call files is regular. -/
theorem Entries.regular_of_filed {entries : Entries} {call : Call} {post : Post}
    (files : entries.held.filed call = some post) : post.Regular := by
  cases call with
  | create user data fresh =>
    obtain rfl := Option.some.inj files
    exact Post.regular_make user data fresh
  | update user id data clock =>
    exact (regular_held entries).change (toOption_eq_some.1 files)
  | read => cases files
  | readAll => cases files
  | delete => cases files

theorem Sound.restock_self (sound : Sound names env) : env.restock env.entries = env := by
  obtain ⟨settled, _⟩ := sound
  cases env
  cases settled
  rfl

/-- The entries after a call are filed right and hold what the catalogue does after it. -/
theorem Entries.Stocked.after {entries : Entries} (stocked : entries.Stocked names)
    (distinct : Distinct names) {call : Call} (known : ∀ name ∈ call.names, name ∈ names) :
    (entries.after call).Stocked names ∧ (entries.after call).held = entries.held.after call := by
  -- a call files one post, or drops one, or changes nothing
  cases files : entries.held.filed call with
  | some post =>
    obtain ⟨hu, hi⟩ := Entries.names_of_filed files
    have filed : entries.after call =
        entries.insert (postKey post.user post.id) post.toDocument := by
      simp only [Entries.after, files]
    rw [filed, Catalogue.after_of_filed files]
    exact stocked.insert distinct (Entries.regular_of_filed files) (known _ hu) (known _ hi)
  | none =>
    cases call with
    | create => cases files
    | read => exact ⟨stocked, rfl⟩
    | readAll => exact ⟨stocked, rfl⟩
    | update user id data clock =>
      have same : entries.after (.update user id data clock) = entries := by
        simp only [Entries.after, files]
      rw [same, Catalogue.after]
      cases given : entries.held.change user id data clock with
      | error e => exact ⟨stocked, rfl⟩
      | ok changed =>
        rw [Catalogue.filed, given] at files
        cases files
    | delete user id =>
      obtain ⟨hu, hi⟩ := Call.names_pair known
      exact stocked.erase distinct hu hi

/-- With the entries after a call the file shows the catalogue after the call. -/
theorem Shows.after (shown : Shows names held env) (distinct : Distinct names) {call : Call}
    (known : ∀ name ∈ call.names, name ∈ names) :
    Shows names (held.after call) (env.restock (env.entries.after call)) := by
  obtain ⟨⟨_, stocked⟩, free, rfl⟩ := shown
  obtain ⟨filed, holds⟩ := stocked.after distinct known
  exact ⟨⟨rfl, filed⟩, free, holds⟩

/-- A change gives what the catalogue gives and files the changed post, if there is one and room for
it. -/
theorem Sound.serve_update (sound : Sound names env) (distinct : Distinct names) (pageSize : Nat)
    {user id : String} (hu : user ∈ names) (hi : id ∈ names) (data : String)
    (clock : ClockReading) :
    (store pageSize).serve (.update user id data clock) env =
      match env.entries.held.change user id data clock with
      | .error e => (.error e, env)
      | .ok changed =>
        if env.capacity < env.entries.size + changed.toDocument.length then
          (.error Failure.mapFull.toStoreError, env)
        else (.ok changed, env.restock (env.entries.after (.update user id data clock))) := by
  obtain ⟨settled, stocked⟩ := sound
  show transact (modify user id data clock) env = _
  rw [transact_modify settled, stocked.get?_postKey distinct hu hi]
  cases found : env.entries.held user id with
  | none => simp [Catalogue.change, found]
  | some post =>
    cases later : post.withData? data clock with
    | none => simp [Catalogue.change, found, later]
    | some changed =>
      have given : env.entries.held.change user id data clock = .ok changed := by
        simp [Catalogue.change, found, later]
      have files : env.entries.held.filed (.update user id data clock) = some changed :=
        congrArg Except.toOption given
      obtain ⟨rfl, rfl⟩ := Entries.change_own given
      simp only [Option.map_some, later, given, Entries.after, files]

/-- A listing delivers what the file holds of the user. -/
theorem opens (shown : Shows names held env) (distinct : Distinct names) (pageSize : Nat)
    {user : String} (known : user ∈ names) :
    ∃ cursor posts, (store pageSize).serve (.readAll user) env = (.ok cursor, env) ∧
      (store pageSize).Lists held user cursor env posts := by
  obtain ⟨⟨settled, stocked⟩, free, rfl⟩ := shown
  have fit := Mark.fit_first user (Nat.le_max_left 1 pageSize)
  have part := stocked.sublist (Entries.sublist_ahead stocked.sorted fit)
  have opened : (store pageSize).serve (.readAll user) env =
      (.ok { mark := some ⟨userKey user, none, max 1 pageSize⟩ }, env) :=
    congrArg (_, ·) (abandon_of_settled settled)
  have left : Cursor.Left (fun mark => transact (fetchPage mark))
      { mark := some ⟨userKey user, none, max 1 pageSize⟩ } env
      ((env.entries.ahead ⟨userKey user, none, max 1 pageSize⟩).map Prod.snd) env :=
    ⟨rfl, _, rfl, pages_ahead settled free stocked _ fit (Nat.le_refl _)⟩
  -- there are no more documents ahead than entries in the file
  have few : (env.entries.ahead ⟨userKey user, none, max 1 pageSize⟩).posts.length ≤
      env.entries.length := by
    have keys := congrArg List.length part.map_posts.2
    rw [List.length_map, List.length_map] at keys
    rw [keys]
    exact (Entries.sublist_ahead stocked.sorted fit).length_le
  have enough : (env.entries.ahead ⟨userKey user, none, max 1 pageSize⟩).posts.length ≤
      (store pageSize).feed.pending { mark := some ⟨userKey user, none, max 1 pageSize⟩ } env := by
    simp only [store, Cursor.feed, List.length_nil]
    omega
  refine ⟨_, _, opened, left.delivers decode _ _ part.map_posts.1, enough,
    List.Nodup.of_map _ part.nodup_posts, fun post => ?_⟩
  rw [stocked.mem_posts_ahead distinct known fit]
  exact and_iff_left rfl

/-- Every call gives what the catalogue gives, and leaves the entries as they are after it. -/
theorem complete_store (shown : Shows names held env) (distinct : Distinct names) (pageSize : Nat)
    (call : Call) (known : ∀ name ∈ call.names, name ∈ names) (room : HasRoom call env) :
    held.Gives call ((store pageSize).complete call env).1 ∧
      ((store pageSize).complete call env).2 = env.restock (env.entries.after call) := by
  have still := shown.sound.restock_self
  obtain ⟨⟨settled, stocked⟩, free, rfl⟩ := id shown
  cases call with
  | create user data fresh =>
    have fits := room (Post.make user data fresh) rfl
    have served : (store pageSize).serve (.create user data fresh) env =
        (.ok (Post.make user data fresh),
          env.restock (env.entries.after (.create user data fresh))) := by
      show transact (insert (Post.make user data fresh)) env = _
      rw [transact_insert settled, if_neg (Nat.not_lt.2 fits)]
      rfl
    rw [Store.complete, served]
    exact ⟨rfl, rfl⟩
  | read user id =>
    obtain ⟨hu, hi⟩ := Call.names_pair known
    have served : (store pageSize).serve (.read user id) env =
        (env.entries.held.lookup user id, env.restock (env.entries.after (.read user id))) := by
      show transact (find user id) env = (_, env.restock env.entries)
      rw [transact_find settled, free, stocked.get?_postKey distinct hu hi, still, Catalogue.lookup]
      cases env.entries.held user id <;> rfl
    rw [Store.complete, served]
    exact ⟨rfl, rfl⟩
  | readAll user =>
    obtain ⟨cursor, posts, opened, lists⟩ :=
      opens shown distinct pageSize (known user List.mem_cons_self)
    rw [Store.complete, lists.listAll opened]
    exact ⟨⟨posts, rfl, lists.once, lists.all⟩, still.symm⟩
  | update user id data clock =>
    obtain ⟨hu, hi⟩ := Call.names_pair known
    have served : (store pageSize).serve (.update user id data clock) env =
        (env.entries.held.change user id data clock,
          env.restock (env.entries.after (.update user id data clock))) := by
      rw [shown.sound.serve_update distinct pageSize hu hi]
      cases given : env.entries.held.change user id data clock with
      | error e =>
        have same : env.entries.after (.update user id data clock) = env.entries := by
          simp [Entries.after, Catalogue.filed, given, Except.toOption]
        rw [same, still]
      | ok changed =>
        have fits := room changed (congrArg Except.toOption given)
        simp only [if_neg (Nat.not_lt.2 fits)]
    rw [Store.complete, served]
    exact ⟨rfl, rfl⟩
  | delete user id =>
    have served : (store pageSize).serve (.delete user id) env =
        (.ok (), env.restock (env.entries.after (.delete user id))) := transact_remove user id
    rw [Store.complete, served]
    exact ⟨rfl, rfl⟩

end Calls

/-- **The store of documents in a file follows what the file holds.** -/
theorem follows {names : Set String} (distinct : Distinct names) (pageSize : Nat) :
    (store pageSize).Follows
      (fun call env => (∀ name ∈ call.names, name ∈ names) ∧ HasRoom call env) (Shows names) := by
  rintro call held env shown ⟨known, room⟩
  obtain ⟨given, after⟩ := complete_store shown distinct pageSize call known room
  rw [after]
  exact ⟨given, shown.after distinct known⟩

/-! ## Room -/

/-- The bytes of a key. -/
def keyWidth : Nat := 64

theorem length_postKey (user id : String) : (postKey user id).length = keyWidth := by
  rw [postKey, userKey, List.length_append, length_digest, length_digest]
  rfl

/-- The bytes that the keys and documents of all posts take that some calls file. -/
def need : List Call → Catalogue → Nat
  | [], _ => 0
  | call :: rest, held =>
    ((held.filed call).elim 0 fun post => keyWidth + post.toDocument.length) +
      need rest (held.after call)

namespace Entries

theorem size_insert_le (key value : Bytes) (entries : Entries) :
    (entries.insert key value).size ≤ entries.size + (key.length + value.length) := by
  induction entries with
  | nil => simp [insert, size]
  | cons entry rest ih =>
    obtain ⟨k, v⟩ := entry
    rw [insert]
    split
    · simp only [size, List.foldr_cons]
      omega
    · split
      · simp only [size, List.foldr_cons]
        omega
      · simp only [size, List.foldr_cons] at ih ⊢
        omega

theorem size_erase_le (key : Bytes) (entries : Entries) :
    (entries.erase key).size ≤ entries.size := by
  induction entries with
  | nil => exact Nat.le_refl _
  | cons entry rest ih =>
    unfold erase at ih ⊢
    rw [List.filter_cons]
    split
    · simp only [size, List.foldr_cons] at ih ⊢
      omega
    · simp only [size, List.foldr_cons] at ih ⊢
      omega

/-- A call adds no more than the key and the document of the post that it files. -/
theorem size_after_le (entries : Entries) (call : Call) :
    (entries.after call).size ≤ entries.size +
      (entries.held.filed call).elim 0 fun post => keyWidth + post.toDocument.length := by
  cases files : entries.held.filed call with
  | some post =>
    have grown := size_insert_le (postKey post.user post.id) post.toDocument entries
    rw [length_postKey] at grown
    simpa only [after, files, Option.elim_some] using grown
  | none =>
    cases call with
    | delete user id => exact size_erase_le (postKey user id) entries
    | _ => simp only [after, files, Option.elim_none, Nat.add_zero, Nat.le_refl]

end Entries

/-- A file that has room for all that some calls file has room whenever one of them is made. -/
theorem within_of_need {names : Set String} (distinct : Distinct names) (pageSize : Nat)
    (calls : List Call) :
    ∀ {held : Catalogue} {env : Environment}, Shows names held env →
      (∀ call ∈ calls, ∀ name ∈ call.names, name ∈ names) →
      env.entries.size + need calls held ≤ env.capacity →
      (store pageSize).Within HasRoom calls env := by
  induction calls with
  | nil => exact fun _ _ _ => trivial
  | cons call calls ih =>
    intro held env shown known enough
    have known' := known call List.mem_cons_self
    have grown := env.entries.size_after_le call
    rw [shown.holds] at grown
    rw [need] at enough
    have room : HasRoom call env := by
      intro post files
      rw [shown.holds] at files
      rw [Option.mem_def.1 files, Option.elim_some] at enough
      omega
    obtain ⟨_, after⟩ := complete_store shown distinct pageSize call known' room
    refine ⟨room, ?_⟩
    rw [after]
    refine ih (shown.after distinct known')
      (fun other later => known other (List.mem_cons_of_mem call later)) ?_
    show (env.entries.after call).size + need calls (held.after call) ≤ env.capacity
    omega

/-! ## Agreement -/

/-- **A store of documents in a file gives, call by call, what the store in memory gives**, but for
the order of listings, and never finds something that is not a post. -/
theorem agrees_with_memory (pageSize capacity : Nat) (calls : List Call)
    (distinct : Distinct (Call.namesOf calls))
    (room : (store pageSize).Within HasRoom calls { capacity := capacity }) :
    List.Forall₂ Alike (replies (store pageSize).outcome calls { capacity := capacity })
        (replies Memory.store.outcome calls {}) ∧
      ∀ reply ∈ replies (store pageSize).outcome calls { capacity := capacity }, ∀ name reason,
        reply.2 ≠ reply.1.fail (.decode name reason) := by
  have known : ∀ call ∈ calls, ∀ name ∈ call.names, name ∈ Call.namesOf calls :=
    fun call member name used => ⟨call, member, used⟩
  have within := room.also known
  have shown := shows_empty (Call.namesOf calls) capacity
  have follows := follows distinct pageSize
  exact ⟨follows.alike Memory.follows calls shown Memory.shows_empty within
      (Store.within_true Memory.store calls {}), follows.ne_decode calls shown within⟩

/-- Whether the names that some calls use have different digests can be worked out. -/
theorem distinct_of_pairwise {calls : List Call}
    (apart : (calls.flatMap Call.names).Pairwise fun x y =>
      Sha256.digestByRounds (Text.utf8 x) = Sha256.digestByRounds (Text.utf8 y) → x = y) :
    Distinct (Call.namesOf calls) := by
  have symm : Std.Symm fun x y : String =>
      Sha256.digestByRounds (Text.utf8 x) = Sha256.digestByRounds (Text.utf8 y) → x = y :=
    ⟨fun _ _ either same => (either same.symm).symm⟩
  intro x used y used' same
  simp only [Sha256.digest_eq] at same
  exact apart.forall_of_forall (fun _ _ _ => rfl) (List.mem_flatMap.2 used)
    (List.mem_flatMap.2 used') same

/-- The two names in the errands have different digests. -/
theorem distinct_errands : Distinct (Call.namesOf errands) :=
  distinct_of_pairwise (by decide +kernel)

/-- In pages of one document each, and with a kilobyte of room. -/
theorem agrees_with_memory_errands :
    Distinct (Call.namesOf errands) ∧ (store 1).Within HasRoom errands { capacity := 1024 } ∧
      List.Forall₂ Alike (replies (store 1).outcome errands { capacity := 1024 })
        (replies Memory.store.outcome errands {}) := by
  have distinct := distinct_errands
  have room : (store 1).Within HasRoom errands { capacity := 1024 } :=
    within_of_need distinct 1 errands (shows_empty _ 1024)
      (fun call member name used => ⟨call, member, used⟩) (by decide +kernel)
  exact ⟨distinct, room, (agrees_with_memory 1 1024 errands distinct room).1⟩

end Lmdb

end PostStore
