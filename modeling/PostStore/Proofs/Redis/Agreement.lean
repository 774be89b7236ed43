import PostStore.Proofs.Redis.Server
/-!
# The store in a key-value server agrees with the store in memory

The hashes of a server show a catalogue when the field of every post holds the document of that very
post.  Each call keeps it so, because a change files the post where its document says that it
belongs, and gives what the catalogue gives.
-/

namespace PostStore.Redis

/-! ## Hashes that show a catalogue -/

section Calls

variable {σ : Type} {serve : (command : Command) → σ → ReplyTo command × σ}
  {bound : σ → String → Nat} {sound : σ → Prop} {hash : σ → String → String → Option Bytes}

/-- The hashes hold the documents of the posts of a catalogue, regular posts, each under its own
user and identifier, and nothing else where the store looks. -/
structure Shows (setup : StoreSetup) (hash : σ → String → String → Option Bytes) (held : Catalogue)
    (s : σ) : Prop where
  holds : ∀ user id, hash s (setup.userKey user) id = (held user id).map Post.toDocument
  own : ∀ user id post, held user id = some post → post.user = user ∧ post.id = id
  regular : held.Regular

theorem StoreSetup.userKey_inj {setup : StoreSetup} {user user' : String} :
    setup.userKey user = setup.userKey user' ↔ user = user' := by
  simp [userKey]

variable {setup : StoreSetup} {held : Catalogue} {s s' : σ}

/-- Filing the document of a regular post files the post. -/
theorem Shows.file (shown : Shows setup hash held s) {post : Post} (regular : post.Regular)
    (after : hash s' = fun key field =>
      if key = setup.userKey post.user ∧ field = post.id then some post.toDocument
      else hash s key field) : Shows setup hash (held.file post) s' where
  holds user id := by
    rw [after]
    simp only [StoreSetup.userKey_inj, Catalogue.file, shown.holds]
    split <;> rfl
  own user id found given := by
    rw [Catalogue.file] at given
    split at given
    · rename_i here
      obtain rfl := Option.some.inj given
      exact ⟨here.1.symm, here.2.symm⟩
    · exact shown.own user id found given
  regular := shown.regular.file regular

/-- Removing a field drops the post. -/
theorem Shows.drop (shown : Shows setup hash held s) (user id : String)
    (after : hash s' = fun key field =>
      if key = setup.userKey user ∧ field = id then none else hash s key field) :
    Shows setup hash (held.drop user id) s' where
  holds user' id' := by
    rw [after]
    simp only [StoreSetup.userKey_inj, Catalogue.drop, shown.holds]
    split <;> rfl
  own user' id' found given := by
    rw [Catalogue.drop] at given
    split at given
    · cases given
    · exact shown.own user' id' found given
  regular := shown.regular.drop user id

/-- Hashes that stay as they are show what they showed. -/
theorem Shows.same (shown : Shows setup hash held s) (still : hash s' = hash s) :
    Shows setup hash held s' :=
  ⟨fun user id => still ▸ shown.holds user id, shown.own, shown.regular⟩

/-! ## Single posts -/

/-- A regular post is filed. -/
theorem converse_file (acts : ActsAsHashes serve bound sound hash) (good : sound s)
    (shown : Shows setup hash held s) {post : Post} (regular : post.Regular) :
    ∃ s', converseWith serve (file setup post) s = (.ok post, s') ∧
      Shows setup hash (held.file post) s' := by
  obtain ⟨⟨n, reply⟩, after⟩ := acts.hset (setup.userKey post.user) post.id post.toDocument s good
  have calm : (Reply.int n).checked = .ok (.int n) := rfl
  refine ⟨_, converse_send _ (Prod.ext reply rfl) calm, shown.file regular after⟩

/-- A lookup gives what the catalogue gives. -/
theorem converse_find (acts : ActsAsHashes serve bound sound hash) (good : sound s)
    (shown : Shows setup hash held s) (user id : String) :
    ∃ s', converseWith serve (find setup user id) s = (held.lookup user id, s') ∧ sound s' ∧
      Shows setup hash held s' := by
  obtain ⟨reply, good', still⟩ := acts.hget (setup.userKey user) id s good
  refine ⟨_, ?_, good', shown.same still⟩
  rw [shown.holds] at reply
  rw [Catalogue.lookup]
  cases found : held user id with
  | none =>
    rw [found] at reply
    have calm : Reply.nil.checked = .ok .nil := rfl
    have understood : Reply.nil.toText? = .ok none := rfl
    rw [find, converse_send _ (Prod.ext reply rfl) calm, converse_understand _ understood]
    rfl
  | some post =>
    rw [found] at reply
    have calm : (Reply.bulk post.toDocument).checked = .ok (.bulk post.toDocument) := rfl
    obtain ⟨document, understood, decoded⟩ := toText?_document (shown.regular user id post found)
    rw [find, converse_send _ (Prod.ext reply rfl) calm, converse_understand _ understood]
    exact congrArg (·, _) decoded

/-- A change gives what the catalogue gives, and files the changed post where it was. -/
theorem converse_modify (acts : ActsAsHashes serve bound sound hash) (good : sound s)
    (shown : Shows setup hash held s) (user id data : String) (clock : ClockReading) :
    ∃ s', converseWith serve (modify setup user id data clock) s =
        (held.change user id data clock, s') ∧
      Shows setup hash (held.afterChange (held.change user id data clock)) s' := by
  obtain ⟨s₁, looked, good₁, shown₁⟩ := converse_find acts good shown user id
  rw [modify, converse_bind, looked, Catalogue.change, Catalogue.lookup]
  cases found : held user id with
  | none => exact ⟨s₁, rfl, shown₁⟩
  | some post =>
    cases later : post.withData? data clock with
    | none =>
      simp only [later]
      exact ⟨s₁, rfl, shown₁⟩
    | some changed =>
      simp only [later]
      have regular := (shown.regular user id post found).withData? clock.regular later
      exact converse_file acts good₁ shown₁ regular

/-! ## Listings -/

/-- Values that are all text are the bytes of texts. -/
theorem exists_inBytes {found : Fields} (text : ∀ field ∈ found, Text.IsText field.2) :
    ∃ fields, found = inBytes fields := by
  induction found with
  | nil => exact ⟨[], rfl⟩
  | cons field rest ih =>
    obtain ⟨value, bytes⟩ := text field List.mem_cons_self
    obtain ⟨fields, rfl⟩ := ih fun other member => text other (List.mem_cons_of_mem field member)
    refine ⟨(field.1, value) :: fields, ?_⟩
    simp only [inBytes, List.map_cons, bytes]

/-- The posts under the names of some fields, when the values of the fields are their documents. -/
theorem exists_posts {user : String} {fields : List (String × String)}
    (own : ∀ user id post, held user id = some post → post.user = user ∧ post.id = id)
    (each : ∀ field ∈ fields, ∃ post, held user field.1 = some post ∧ decode field.2 = .ok post) :
    ∃ posts : List Post, (fields.map Prod.snd).map decode = posts.map .ok ∧
      posts.map Post.id = fields.map Prod.fst ∧ ∀ post ∈ posts, held user post.id = some post := by
  induction fields with
  | nil => exact ⟨[], rfl, rfl, fun _ member => nomatch member⟩
  | cons field rest ih =>
    obtain ⟨post, found, decoded⟩ := each field List.mem_cons_self
    obtain ⟨posts, documents, ids, all⟩ :=
      ih fun other member => each other (List.mem_cons_of_mem field member)
    have id := (own user field.1 post found).2
    refine ⟨post :: posts, ?_, ?_, ?_⟩
    · rw [List.map_cons, List.map_cons, decoded, documents, List.map_cons]
    · rw [List.map_cons, List.map_cons, id, ids]
    · intro other member
      rcases List.mem_cons.1 member with rfl | later
      · rw [id, found]
      · exact all other later

/-- What is found in the hash of a user is text, and the values that come first under their names
are read as the posts that the catalogue holds for the user, each once. -/
theorem Shows.posts_of_found (shown : Shows setup hash held s) (user : String) {found : Fields}
    (fields : ∀ field value, (field, value) ∈ found ↔
      hash s (setup.userKey user) field = some value) :
    ∃ (texts : List (String × String)) (posts : List Post), found = inBytes texts ∧
      ((firsts [] texts).map Prod.snd).map decode = posts.map .ok ∧ (posts.map Post.id).Nodup ∧
        ∀ post, post ∈ posts ↔ held user post.id = some post := by
  -- every field holds the document of the post under its name
  have documents : ∀ field ∈ found, ∃ post, held user field.1 = some post ∧
      field.2 = post.toDocument := by
    intro field member
    have value := (fields field.1 field.2).1 member
    rw [shown.holds, Option.map_eq_some_iff] at value
    obtain ⟨post, filed, document⟩ := value
    exact ⟨post, filed, document.symm⟩
  obtain ⟨texts, rfl⟩ := exists_inBytes fun field member => by
    obtain ⟨post, _, document⟩ := documents field member
    exact document ▸ post.isText_toDocument
  have each : ∀ field ∈ firsts [] texts, ∃ post, held user field.1 = some post ∧
      decode field.2 = .ok post := by
    intro field member
    have inside := List.mem_map_of_mem (f := fun field => (field.1, Text.utf8 field.2))
      (mem_of_mem_firsts member).1
    obtain ⟨post, filed, document⟩ := documents _ inside
    exact ⟨post, filed, decode_document (shown.regular user field.1 post filed) document⟩
  obtain ⟨posts, decoded, ids, all⟩ := exists_posts shown.own each
  refine ⟨texts, posts, rfl, decoded, ids ▸ nodup_firsts texts [], fun post => ⟨all post, ?_⟩⟩
  intro filed
  -- the field of a post that is held is among those found, and so the post is read from the first
  -- value under its name
  have value : hash s (setup.userKey user) post.id = some post.toDocument := by
    rw [shown.holds, filed]
    rfl
  have named : post.id ∈ texts.map Prod.fst := by
    obtain ⟨field, member, eq⟩ := List.mem_map.1 ((fields _ _).2 value)
    exact List.mem_map.2 ⟨field, member, (Prod.mk.inj eq).1⟩
  have first := name_mem_firsts named List.not_mem_nil
  rw [← ids] at first
  obtain ⟨other, member, same⟩ := List.mem_map.1 first
  have held' := all other member
  rw [same, filed] at held'
  obtain rfl := Option.some.inj held'
  exact member

/-- A listing gives the posts that the catalogue holds for the user, each once. -/
theorem listAll_store (acts : ActsAsHashes serve bound sound hash) (good : sound s)
    (shown : Shows setup hash held s) (positive : 0 < setup.scanCount) (user : String) :
    ∃ posts s', Service.listAll (storeOver serve setup bound) user s = (.ok posts, s') ∧
      Shows setup hash held s' ∧ posts.Nodup ∧
      ∀ post, post ∈ posts ↔ held user post.id = some post := by
  obtain ⟨found, final, steps, scans, still, fields⟩ :=
    acts.hscan (setup.userKey user) setup.scanCount s good positive
  obtain ⟨texts, posts, rfl, decoded, names, all⟩ := shown.posts_of_found user fields
  have left : Cursor.Left
      (Cursor.atOnce fun (mark : Mark) s => converseWith serve (fill (bound s mark.key) mark) s)
      { mark := some { key := setup.userKey user, count := setup.scanCount } } s
      ((firsts [] texts).map Prod.snd) final :=
    ⟨rfl, _, rfl, scans.ahead steps [] texts (Nat.le_refl steps)⟩
  have enough : posts.length ≤ (storeOver serve setup bound).feed.pending
      { mark := some { key := setup.userKey user, count := setup.scanCount } } s := by
    have few := acts.fields (setup.userKey user) s (posts.map Post.id) good names
    have present : ∀ field ∈ posts.map Post.id, hash s (setup.userKey user) field ≠ none := by
      intro field member
      obtain ⟨post, inside, rfl⟩ := List.mem_map.1 member
      rw [shown.holds, (all post).1 inside]
      exact Option.some_ne_none _
    have bounded := few present
    rw [List.length_map] at bounded
    simp only [storeOver, Cursor.feed, List.length_nil]
    omega
  obtain ⟨given, ended⟩ := left.collect decode _ decoded enough
  exact ⟨posts, final, Service.listAll_of_collect (storeOver serve setup bound) rfl given ended,
    shown.same still, List.Nodup.of_map _ names, all⟩

end Calls

/-! ## Agreement -/

section Agreement

variable {σ : Type} {serve : (command : Command) → σ → ReplyTo command × σ}
  {bound : σ → String → Nat} {sound : σ → Prop} {hash : σ → String → String → Option Bytes}

/-- **The store in a key-value server follows what the hashes hold.** -/
theorem follows (acts : ActsAsHashes serve bound sound hash) {setup : StoreSetup}
    (positive : 0 < setup.scanCount) :
    (storeOver serve setup bound).Follows (fun _ s => sound s) (Shows setup hash) := by
  intro call held s shown good
  cases call with
  | create user data fresh =>
    obtain ⟨s', served, after⟩ := converse_file acts good shown (Post.regular_make user data fresh)
    have outcome : (storeOver serve setup bound).serve (.create user data fresh) s =
        (.ok (Post.make user data fresh), s') := served
    rw [Store.complete, outcome]
    exact ⟨rfl, after⟩
  | read user id =>
    obtain ⟨s', served, _, after⟩ := converse_find acts good shown user id
    have outcome : (storeOver serve setup bound).serve (.read user id) s =
        (held.lookup user id, s') := served
    rw [Store.complete, outcome]
    exact ⟨rfl, after⟩
  | readAll user =>
    obtain ⟨posts, s', listed, after, once, all⟩ := listAll_store acts good shown positive user
    rw [Store.complete, listed]
    exact ⟨⟨posts, rfl, once, all⟩, after⟩
  | update user id data clock =>
    obtain ⟨s', served, after⟩ := converse_modify acts good shown user id data clock
    have outcome : (storeOver serve setup bound).serve (.update user id data clock) s =
        (held.change user id data clock, s') := served
    rw [Store.complete, outcome]
    exact ⟨rfl, after⟩
  | delete user id =>
    obtain ⟨⟨n, reply⟩, after⟩ := acts.hdel (setup.userKey user) id s good
    have calm : (Reply.int n).checked = .ok (.int n) := rfl
    have outcome : (storeOver serve setup bound).serve (.delete user id) s =
        (.ok (), (serve (.hdel (setup.userKey user) id) s).2) :=
      converse_send _ (Prod.ext reply rfl) calm
    rw [Store.complete, outcome]
    exact ⟨rfl, shown.drop user id after⟩

/-- **The store in a key-value server gives, call by call, what the store in memory gives**, but for
the order of listings, and never finds something that is not a post: whatever the keys start with
and however many fields are asked for in a scan, as long as the server acts as it should whenever it
is called. -/
theorem hashes_agree_with_memory (acts : ActsAsHashes serve bound sound hash) (keyPrefix : String)
    (count : Nat) (calls : List Call) (s : σ) (empty : ∀ key field, hash s key field = none)
    (within : (storeOver serve (StoreSetup.withScanCount { keyPrefix := keyPrefix } count)
      bound).Within (fun _ s => sound s) calls s) :
    List.Forall₂ Alike
        (replies (storeOver serve (StoreSetup.withScanCount { keyPrefix := keyPrefix } count)
          bound).outcome calls s)
        (replies Memory.store.outcome calls {}) ∧
      ∀ reply ∈ replies (storeOver serve
          (StoreSetup.withScanCount { keyPrefix := keyPrefix } count) bound).outcome calls s,
        ∀ name reason, reply.2 ≠ reply.1.fail (.decode name reason) := by
  have positive : 0 < (StoreSetup.withScanCount { keyPrefix := keyPrefix } count).scanCount :=
    Nat.le_max_right count 1
  have shown : Shows (StoreSetup.withScanCount { keyPrefix := keyPrefix } count) hash
      (fun _ _ => none) s :=
    ⟨fun _ _ => empty _ _, fun _ _ _ found => (nomatch found), Catalogue.regular_empty⟩
  have follows := follows acts positive
  exact ⟨follows.alike Memory.follows calls shown Memory.shows_empty within
      (Store.within_true Memory.store calls {}), follows.ne_decode calls shown within⟩

end Agreement

/-- Over the plain server, with one field in each batch of a scan. -/
theorem hashes_agree_with_memory_errands :
    ActsAsHashes Server.serve Server.scanBound (Server.InOrder Server.lastCursor) Server.value ∧
      (∀ key field, Server.value {} key field = none) ∧
      (storeOver Server.serve (StoreSetup.withScanCount { keyPrefix := "posts:" } 1)
        Server.scanBound).Within (fun _ server => server.InOrder Server.lastCursor) errands {} ∧
      List.Forall₂ Alike
        (replies (store (StoreSetup.withScanCount { keyPrefix := "posts:" } 1)).outcome errands {})
        (replies Memory.store.outcome errands {}) := by
  have empty : ∀ key field, Server.value {} key field = none := fun _ _ => rfl
  have few : 0 + errands.length ≤ Server.lastCursor := by decide
  have within := Server.within_inOrder (StoreSetup.withScanCount { keyPrefix := "posts:" } 1)
    errands Server.inOrder_empty few
  exact ⟨Server.actsAsHashes, empty, within,
    (hashes_agree_with_memory Server.actsAsHashes "posts:" 1 errands {} empty within).1⟩

end PostStore.Redis
