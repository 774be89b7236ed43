import PostStore.Proofs.Redis.Agreement
/-!
# Where a change is filed

A change looks its post up under the user and the identifier that are asked for, and files it where
the document that is found says that it belongs.  So a removal leaves everything else on the server
as it is, and so does a change that gets no further than its lookup; but the document of a post that
was filed in the wrong place leads a change astray, to a field that nobody asked for.
-/

namespace PostStore.Redis

namespace Server

/-! ## What the server holds -/

/-- What the server holds. -/
def database (server : Server) : Bindings String Fields × Bindings String Bytes :=
  (server.hashes, server.strings)

/-- All strings are as they were, and all fields of hashes but one. -/
def SparesBut (key field : String) (before after : Server) : Prop :=
  after.strings = before.strings ∧
    ∀ k f, ¬ (k = key ∧ f = field) → after.value k f = before.value k f

variable {server before after : Server} {key field : String}

theorem value_of_database (same : after.database = before.database) :
    after.value = before.value := by
  funext k f
  rw [Server.value, Server.fields, (Prod.mk.inj same).1]
  rfl

/-- Where nothing changes everything is spared. -/
theorem sparesBut_of_database (same : after.database = before.database) (key field : String) :
    SparesBut key field before after :=
  ⟨(Prod.mk.inj same).2, fun k f _ => congrFun (congrFun (value_of_database same) k) f⟩

/-- What comes before and changes nothing does not matter. -/
theorem SparesBut.of_database {between : Server} (spares : SparesBut key field between after)
    (same : between.database = before.database) : SparesBut key field before after := by
  refine ⟨spares.1.trans (Prod.mk.inj same).2, fun k f elsewhere => ?_⟩
  rw [spares.2 k f elsewhere, value_of_database same]

/-- Where the one field is as it was too, any other is as good. -/
theorem SparesBut.of_value (spares : SparesBut key field before after)
    (same : after.value key field = before.value key field) (key' field' : String) :
    SparesBut key' field' before after := by
  refine ⟨spares.1, fun k f _ => ?_⟩
  by_cases here : k = key ∧ f = field
  · rw [here.1, here.2, same]
  · exact spares.2 k f here

theorem sparesBut_setFields {fields : Fields}
    (others : ∀ f, f ≠ field → fields.get? f = server.value key f) :
    SparesBut key field server (server.setFields key fields) := by
  refine ⟨rfl, fun k f elsewhere => ?_⟩
  rw [Server.value, fields_setFields]
  split
  · rename_i here
    subst here
    exact others f fun same => elsewhere ⟨rfl, same⟩
  · rfl

/-! ## One command -/

/-- The server remembers every command, whatever it does. -/
theorem received_serve (command : Command) (server : Server) :
    (serve command server).2.received = command :: server.received := by
  rw [serve]
  cases server.queued with
  | cons reply rest => rfl
  | nil =>
    cases command with
    | hget key field => simp only [execute]; split <;> rfl
    | hdel key field => simp only [execute]; split <;> rfl
    | get key => simp only [execute]; split <;> rfl
    | hset | hscan | set | setEx | del => rfl

/-- A lookup changes nothing. -/
theorem database_hget (key field : String) (server : Server) :
    (serve (.hget key field) server).2.database = server.database := by
  rw [serve]
  cases server.queued with
  | cons reply rest => rfl
  | nil => simp only [execute]; split <;> rfl

/-- A command that gets a reply that was waiting has no effect. -/
theorem database_of_waiting (waiting : server.queued ≠ []) (command : Command) :
    (serve command server).2.database = server.database := by
  rw [serve]
  cases queued : server.queued with
  | cons reply rest => rfl
  | nil => exact absurd queued waiting

theorem sparesBut_hset (key field : String) (value : Bytes) (server : Server) :
    SparesBut key field server (serve (.hset key field value) server).2 := by
  by_cases calm : server.queued = []
  · rw [serve_of_calm calm]
    refine sparesBut_setFields fun f other => ?_
    rw [Bindings.get?_put, if_neg (Ne.symm other)]
    rfl
  · exact sparesBut_of_database (database_of_waiting calm _) key field

/-- What is filed is there afterwards, unless a reply was waiting. -/
theorem value_hset (calm : server.queued = []) (key field : String) (value : Bytes) :
    (serve (.hset key field value) server).2.value key field = some value := by
  rw [serve_of_calm calm]
  show Bindings.get? field (fields (setFields _ key _) key) = some value
  rw [fields_setFields, if_pos rfl, Bindings.get?_put, if_pos rfl]

theorem sparesBut_hdel (key field : String) (server : Server) :
    SparesBut key field server (serve (.hdel key field) server).2 := by
  by_cases calm : server.queued = []
  · rw [serve_of_calm calm]
    simp only [execute]
    split
    · refine sparesBut_setFields fun f other => ?_
      rw [Bindings.get?_erase, if_neg (Ne.symm other)]
      rfl
    · exact sparesBut_of_database rfl key field
  · exact sparesBut_of_database (database_of_waiting calm _) key field

end Server

/-! ## Removals and lookups -/

section Calls

variable (setup : StoreSetup) (user id data : String) (clock : ClockReading) (server : Server)

/-- A removal spares all but the field that is asked for, whatever is in it and whatever the
reply. -/
theorem sparesBut_delete : Server.SparesBut (setup.userKey user) id server
    ((store setup).serve (.delete user id) server).2 := by
  have removed : ((store setup).serve (.delete user id) server).2 =
      (Server.serve (.hdel (setup.userKey user) id) server).2 := by
    show (converseWith Server.serve (remove setup user id) server).2 = _
    rw [remove, converse_send_eq]
    split <;> rfl
  rw [removed]
  exact Server.sparesBut_hdel _ _ _

/-- The server after the lookup of a post. -/
def looked : Server := ((store setup).serve (.read user id) server).2

theorem looked_eq :
    looked setup user id server = (Server.serve (.hget (setup.userKey user) id) server).2 :=
  Server.converse_find_state setup user id server

theorem database_looked : (looked setup user id server).database = server.database := by
  rw [looked_eq]
  exact Server.database_hget _ _ _

/-! ## Changes -/

/-- A change ends behind its lookup, or makes something of the post that was found and files that
where the post says that it belongs. -/
theorem update_cases :
    (((store setup).serve (.update user id data clock) server).2 = looked setup user id server ∧
      ∀ post, ((store setup).serve (.read user id) server).1 = .ok post →
        post.withData? data clock = none) ∨
    ∃ post changed, ((store setup).serve (.read user id) server).1 = .ok post ∧
      post.withData? data clock = some changed ∧
      ((store setup).serve (.update user id data clock) server).2 =
        (Server.serve (.hset (setup.userKey post.user) post.id changed.toDocument)
          (looked setup user id server)).2 := by
  have update : (store setup).serve (.update user id data clock) server =
      converseWith Server.serve (modify setup user id data clock) server := rfl
  have read : (store setup).serve (.read user id) server =
      converseWith Server.serve (find setup user id) server := rfl
  rw [update, modify, converse_bind, ← read]
  cases ((store setup).serve (.read user id) server).1 with
  | error e =>
    refine .inl ⟨rfl, fun post found => ?_⟩
    cases found
  | ok post =>
    cases later : post.withData? data clock with
    | none =>
      refine .inl ⟨by simp only [later]; rfl, ?_⟩
      rintro _ ⟨⟩
      exact later
    | some changed =>
      obtain ⟨ownUser, ownId, -, -⟩ := Post.withData?_identity later
      refine .inr ⟨post, changed, rfl, later, ?_⟩
      simp only [later]
      rw [Server.converse_file_state, ownUser, ownId]
      rfl

/-- A lookup gives the regular post in the document that is there, whoever that post belongs to. -/
theorem read_of_document {post : Post} (regular : post.Regular) (calm : server.queued = [])
    (held : server.value (setup.userKey user) id = some post.toDocument) :
    ((store setup).serve (.read user id) server).1 = .ok post := by
  have served : Server.serve (.hget (setup.userKey user) id) server =
      (.bulk post.toDocument, server.log (.hget (setup.userKey user) id)) := by
    have there : Bindings.get? id (Server.fields (server.log (.hget (setup.userKey user) id))
        (setup.userKey user)) = some post.toDocument := held
    rw [Server.serve_of_calm calm, Server.execute, there]
  obtain ⟨document, understood, decoded⟩ := toText?_document regular
  show (converseWith Server.serve (find setup user id) server).1 = .ok post
  rw [find, converse_send _ served rfl, converse_understand _ understood]
  exact decoded

/-- The lookup of a change finds a document that belongs elsewhere, and what is made of it is not
there yet. -/
def Astray : Prop :=
  ∃ post changed, ((store setup).serve (.read user id) server).1 = .ok post ∧
    post.withData? data clock = some changed ∧ (looked setup user id server).queued = [] ∧
    ¬ (post.user = user ∧ post.id = id) ∧
    server.value (setup.userKey post.user) post.id ≠ some changed.toDocument

variable {setup user id data clock server}

/-- A change of which nothing but the lookup was sent has changed nothing. -/
theorem database_of_lookup_only
    (only : ((store setup).serve (.update user id data clock) server).2.received =
      .hget (setup.userKey user) id :: server.received) :
    ((store setup).serve (.update user id data clock) server).2.database = server.database := by
  rcases update_cases setup user id data clock server with ⟨ended, _⟩ | ⟨post, changed, _, _, filed⟩
  · rw [ended, database_looked]
  · rw [filed, Server.received_serve] at only
    cases (List.cons.inj only).1

/-- A change spares all but the field that the post it finds calls its own. -/
theorem update_spares_found {post : Post}
    (found : ((store setup).serve (.read user id) server).1 = .ok post) :
    Server.SparesBut (setup.userKey post.user) post.id server
      ((store setup).serve (.update user id data clock) server).2 := by
  have before := database_looked setup user id server
  rcases update_cases setup user id data clock server with
    ⟨ended, _⟩ | ⟨_, changed, found', _, filed⟩
  · rw [ended]
    exact Server.sparesBut_of_database before _ _
  · obtain rfl := Except.ok.inj (found.symm.trans found')
    rw [filed]
    exact (Server.sparesBut_hset _ _ _ _).of_database before

/-- A change that is led astray overwrites a field that nobody asked for. -/
theorem not_spares_of_astray (astray : Astray setup user id data clock server) :
    ¬ Server.SparesBut (setup.userKey user) id server
      ((store setup).serve (.update user id data clock) server).2 := by
  obtain ⟨post, changed, found, later, calm, elsewhere, new⟩ := astray
  intro spares
  rcases update_cases setup user id data clock server with
    ⟨_, none⟩ | ⟨_, _, found', later', filed⟩
  · cases later.symm.trans (none post found)
  · obtain rfl := Except.ok.inj (found.symm.trans found')
    obtain rfl := Option.some.inj (later.symm.trans later')
    have other : ¬ (setup.userKey post.user = setup.userKey user ∧ post.id = id) := by
      rwa [StoreSetup.userKey_inj]
    have kept := spares.2 _ _ other
    rw [filed, Server.value_hset calm] at kept
    exact new kept.symm

/-- A change that is not led astray spares all but the field that is asked for. -/
theorem spares_of_not_astray (straight : ¬ Astray setup user id data clock server) :
    Server.SparesBut (setup.userKey user) id server
      ((store setup).serve (.update user id data clock) server).2 := by
  have before := database_looked setup user id server
  rcases update_cases setup user id data clock server with
    ⟨ended, _⟩ | ⟨post, changed, found, later, filed⟩
  · rw [ended]
    exact Server.sparesBut_of_database before _ _
  · rw [filed]
    by_cases calm : (looked setup user id server).queued = []
    · by_cases own : post.user = user ∧ post.id = id
      · rw [own.1, own.2]
        exact (Server.sparesBut_hset _ _ _ _).of_database before
      · -- the very document is in the field already, and filing it again changes nothing
        have there : server.value (setup.userKey post.user) post.id = some changed.toDocument :=
          not_not.1 fun new => straight ⟨post, changed, found, later, calm, own, new⟩
        refine ((Server.sparesBut_hset _ _ _ _).of_database before).of_value ?_ _ _
        rw [Server.value_hset calm, there]
    · have waiting := Server.database_of_waiting calm
        (.hset (setup.userKey post.user) post.id changed.toDocument)
      exact Server.sparesBut_of_database (waiting.trans before) _ _

end Calls

/-- **A removal spares everything but the field that is asked for, and a change does exactly when
its lookup does not lead it astray**; a change that gets no further than its lookup changes nothing,
and one that finds a post spares everything but the field that this post calls its own. -/
theorem update_spares_iff (setup : StoreSetup) (user id data : String) (clock : ClockReading)
    (server : Server) :
    let update := ((store setup).serve (.update user id data clock) server).2
    let delete := ((store setup).serve (.delete user id) server).2
    Server.SparesBut (setup.userKey user) id server delete ∧
      (update.received = .hget (setup.userKey user) id :: server.received →
        update.database = server.database) ∧
      (Server.SparesBut (setup.userKey user) id server update ↔
        ¬ Astray setup user id data clock server) ∧
      ∀ post, ((store setup).serve (.read user id) server).1 = .ok post →
        Server.SparesBut (setup.userKey post.user) post.id server update :=
  ⟨sparesBut_delete setup user id server, database_of_lookup_only,
    ⟨fun spares astray => not_spares_of_astray astray spares, spares_of_not_astray⟩,
    fun _ => update_spares_found⟩

/-! ## A post in the place of another -/

/-- A post that is filed where it does not belong. -/
def misplaced : Post := Post.make "v" "old" ⟨"q", default⟩

/-- The post that belongs where that one says that it does. -/
def precious : Post := Post.make "v" "precious" ⟨"q", default⟩

/-- The setup under which both are kept. -/
def prefixed : StoreSetup := { keyPrefix := "crudstore:posts:" }

/-- A server with a post of one user among those of another. -/
def misfiled : Server where
  hashes :=
    [("crudstore:posts:u", [("p", misplaced.toDocument)]),
      ("crudstore:posts:v", [("q", precious.toDocument)])]

theorem read_misfiled : ((store prefixed).serve (.read "u" "p") misfiled).1 = .ok misplaced := by
  refine read_of_document prefixed "u" "p" misfiled (Post.regular_make _ _ _) rfl ?_
  have key : prefixed.userKey "u" = "crudstore:posts:u" := by decide
  rw [key]
  rfl

theorem misfiled_astray : Astray prefixed "u" "p" "new" default misfiled := by
  obtain ⟨changed, later⟩ : ∃ changed, misplaced.withData? "new" default = some changed :=
    Option.isSome_iff_exists.1 (by decide)
  have calm : (looked prefixed "u" "p" misfiled).queued = [] := by
    rw [looked_eq]
    rfl
  have there : misfiled.value (prefixed.userKey "v") "q" = some precious.toDocument := by
    have key : prefixed.userKey "v" = "crudstore:posts:v" := by decide
    rw [key]
    rfl
  refine ⟨misplaced, changed, read_misfiled, later, calm, by decide, fun same => ?_⟩
  have documents := congrArg Post.ofDocument (Option.some.inj (there.symm.trans same))
  have regular : changed.Regular :=
    (Post.regular_make "v" "old" ⟨"q", default⟩).withData? (by decide) later
  rw [Post.ofDocument_toDocument (by decide), Post.ofDocument_toDocument regular] at documents
  have text := (Post.withData?_identity later).2.2.1
  rw [← Except.ok.inj documents] at text
  exact absurd text (by decide)

theorem update_spares_iff_misfiled :
    Server.SparesBut "crudstore:posts:u" "p" misfiled
        ((store prefixed).serve (.delete "u" "p") misfiled).2 ∧
      ¬ Server.SparesBut "crudstore:posts:u" "p" misfiled
        ((store prefixed).serve (.update "u" "p" "new" default) misfiled).2 ∧
      Server.SparesBut "crudstore:posts:v" "q" misfiled
        ((store prefixed).serve (.update "u" "p" "new" default) misfiled).2 := by
  obtain ⟨removal, -, change, found⟩ := update_spares_iff prefixed "u" "p" "new" default misfiled
  exact ⟨removal, fun spares => change.1 spares misfiled_astray,
    found misplaced read_misfiled⟩

/-- The change of one user's post overwrites a post of another. -/
theorem update_overwrites_elsewhere :
    ¬ ∀ (server : Server) (user id data : String) (clock : ClockReading),
      Server.SparesBut (prefixed.userKey user) id server
        ((store prefixed).serve (.update user id data clock) server).2 :=
  fun spares => not_spares_of_astray misfiled_astray (spares misfiled "u" "p" "new" default)

end PostStore.Redis
