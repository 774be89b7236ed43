import PostStore.Proofs.Document
import PostStore.Proofs.Transparency
import PostStore.Redis.Cache
/-!
# A key-value server in all weathers

Before a command arrives at the server, entries may expire; the command may be refused, or take
effect while its reply is lost.  Whatever the weather, the cache over the server gives only what it
holds and holds only what it was given; what it is told to let go of stays only when the command for
that is refused.
-/

namespace PostStore

namespace Redis

/-! ## Weather -/

/-- What happens to a command and its reply on their way. -/
inductive Mishap where
  | none
  | refused (line : String)
  | lost (line : String)
  deriving DecidableEq

/-- What comes before a command: some strings expire, and a mishap may be waiting. -/
structure Weather where
  expired : List String := []
  mishap : Mishap := .none
  deriving DecidableEq

/-- The server after the strings under some keys have expired. -/
def Server.expire (server : Server) (keys : List String) : Server :=
  { server with strings := keys.foldr (fun key strings => strings.erase key) server.strings }

/-- A server with the weather of the commands to come. -/
structure Exposed where
  server : Server
  forecast : Nat → Weather

namespace Exposed

/-- The server as the next command finds it. -/
def arriving (exposed : Exposed) : Server := exposed.server.expire (exposed.forecast 0).expired

/-- Whether the next command is refused. -/
def refuses (exposed : Exposed) : Bool :=
  match (exposed.forecast 0).mishap with
  | .refused _ => true
  | _ => false

/-- Serves a command in the weather that comes next; an error takes the place of a lost reply. -/
def serve (command : Command) (exposed : Exposed) : ReplyTo command × Exposed :=
  let after (server : Server) : Exposed := ⟨server, fun n => exposed.forecast (n + 1)⟩
  match (exposed.forecast 0).mishap with
  | .none =>
    let (reply, server) := Server.serve command { exposed.arriving with queued := [] }
    (reply, after server)
  | .refused line =>
    let (reply, server) := Server.serve command { exposed.arriving with queued := [.error line] }
    (reply, after server)
  | .lost line =>
    (.error line, after (Server.serve command { exposed.arriving with queued := [] }).2)

end Exposed

/-- The cache over any server of its commands. -/
def cacheOver {ω : Type} (setup : CacheSetup)
    (serve : (command : Command) → ω → ReplyTo command × ω) : Cache (ω × LookupCounts) where
  name := "redis"
  serve call state :=
    let (answer, server) := (setup.perform call).run serve state.1
    (answer, server, state.2.count call answer)
  stats state := { hits := state.2.hits, misses := state.2.misses }

/-- Over the plain server this is the cache as it is set up. -/
theorem cacheOver_serve (setup : CacheSetup) : cacheOver setup Server.serve = cache setup := rfl

/-! ## Strings after a command -/

theorem Server.get?_of_expire {server : Server} {keys : List String} {key : String}
    {value : Bytes} (found : (server.expire keys).strings.get? key = some value) :
    server.strings.get? key = some value := by
  induction keys with
  | nil => exact found
  | cons expired keys ih =>
    simp only [expire, List.foldr_cons, Bindings.get?_erase] at found
    split at found
    · cases found
    · exact ih found

/-- A document that is replied to a lookup is taken for a post if it is one. -/
theorem Found.ofReply_bulk (document : Bytes) :
    Found.ofReply (.bulk document) =
      match Post.ofDocument document with
      | .ok post => .entry post
      | .error _ => .undecodable := rfl

namespace Exposed

variable (exposed : Exposed)

/-- A lookup leaves the strings as it finds them. -/
theorem strings_get (key : String) :
    (exposed.serve (.get key)).2.server.strings = exposed.arriving.strings := by
  unfold serve
  cases (exposed.forecast 0).mishap with
  | none =>
    simp only [Server.serve, Server.execute]
    split <;> rfl
  | refused line => rfl
  | lost line =>
    simp only [Server.serve, Server.execute]
    split <;> rfl

/-- A string is filed unless the command is refused. -/
theorem strings_store (setup : CacheSetup) (key : String) (post : Post) :
    (exposed.serve (setup.storeCommand key post)).2.server.strings =
      if exposed.refuses then exposed.arriving.strings
      else exposed.arriving.strings.put key post.toDocument := by
  unfold serve refuses CacheSetup.storeCommand
  cases (exposed.forecast 0).mishap <;> cases setup.lifetime <;> rfl

/-- A string is erased unless the command is refused. -/
theorem strings_del (key : String) :
    (exposed.serve (.del key)).2.server.strings =
      if exposed.refuses then exposed.arriving.strings
      else exposed.arriving.strings.erase key := by
  unfold serve refuses
  cases (exposed.forecast 0).mishap <;> rfl

/-- What a lookup finds is there. -/
theorem entry_of_get {key : String} {post : Post}
    (found : Found.ofReply (exposed.serve (.get key)).1 = .entry post) :
    ∃ document, exposed.arriving.strings.get? key = some document ∧
      Post.ofDocument document = .ok post := by
  unfold serve at found
  cases mishap : (exposed.forecast 0).mishap with
  | none =>
    simp only [mishap, Server.serve, Server.execute] at found
    cases there : exposed.arriving.strings.get? key with
    | none =>
      rw [there] at found
      cases found
    | some document =>
      simp only [there, Found.ofReply_bulk] at found
      cases decoded : Post.ofDocument document with
      | error fault =>
        rw [decoded] at found
        cases found
      | ok other =>
        rw [decoded] at found
        cases found
        exact ⟨document, rfl, decoded⟩
  | refused line =>
    rw [mishap] at found
    cases found
  | lost line =>
    rw [mishap] at found
    cases found

/-- What is there is found when the weather is calm. -/
theorem get_of_entry {key : String} {document : Bytes} {post : Post}
    (calm : (exposed.forecast 0).mishap = .none)
    (there : exposed.arriving.strings.get? key = some document)
    (decodes : Post.ofDocument document = .ok post) :
    Found.ofReply (exposed.serve (.get key)).1 = .entry post := by
  simp only [serve, calm, Server.serve, Server.execute, there, Found.ofReply_bulk, decodes]

end Exposed

/-! ## Entries -/

/-- The posts that are filed in the server for the cache. -/
def Server.peek (setup : CacheSetup) (server : Server) : Catalogue := fun user id =>
  (server.strings.get? (setup.entryKey user id)).bind fun document =>
    (Post.ofDocument document).toOption

theorem Server.peek_eq_some {setup : CacheSetup} {server : Server} {user id : String}
    {post : Post} :
    server.peek setup user id = some post ↔
      ∃ document, server.strings.get? (setup.entryKey user id) = some document ∧
        Post.ofDocument document = .ok post := by
  rw [peek, Option.bind_eq_some_iff]
  refine exists_congr fun document => and_congr_right fun _ => ?_
  cases Post.ofDocument document <;> simp [Except.toOption]

namespace Exposed

variable {exposed : Exposed} {setup : CacheSetup} {user id u i : String} {post : Post}

theorem peek_of_arriving (found : exposed.arriving.peek setup u i = some post) :
    exposed.server.peek setup u i = some post := by
  obtain ⟨document, there, decodes⟩ := Server.peek_eq_some.1 found
  exact Server.peek_eq_some.2 ⟨document, Server.get?_of_expire there, decodes⟩

theorem peek_get (key : String) :
    (exposed.serve (.get key)).2.server.peek setup u i = exposed.arriving.peek setup u i := by
  rw [Server.peek, strings_get]
  rfl

/-- The document of a regular post is filed under its key and nowhere else, unless that is
refused. -/
theorem peek_store (regular : post.Regular) :
    (exposed.serve (setup.storeCommand (setup.entryKey user id) post)).2.server.peek setup u i =
      if exposed.refuses then exposed.arriving.peek setup u i
      else if setup.entryKey user id = setup.entryKey u i then some post
      else exposed.arriving.peek setup u i := by
  rw [Server.peek, strings_store]
  split
  · rfl
  · rw [Bindings.get?_put]
    split
    · rw [Option.bind_some, Post.ofDocument_toDocument regular]
      rfl
    · rfl

/-- Nothing is left under a key that is erased, unless that is refused. -/
theorem peek_del :
    (exposed.serve (.del (setup.entryKey user id))).2.server.peek setup u i =
      if exposed.refuses then exposed.arriving.peek setup u i
      else if setup.entryKey user id = setup.entryKey u i then none
      else exposed.arriving.peek setup u i := by
  rw [Server.peek, strings_del]
  split
  · rfl
  · rw [Bindings.get?_erase]
    split <;> rfl

end Exposed

/-! ## The cache -/

section Cache

variable {setup : CacheSetup} {exposed : Exposed} {counts : LookupCounts} {user id : String}

/-- The cache over a server that is exposed to the weather. -/
abbrev weatherCache (setup : CacheSetup) : Cache (Exposed × LookupCounts) :=
  cacheOver setup Exposed.serve

/-- What the cache holds. -/
def weatherPeek (setup : CacheSetup) (state : Exposed × LookupCounts) : Catalogue :=
  state.1.server.peek setup

/-- A lookup that finds a post gives it; one that finds something else has it erased. -/
theorem run_get {ω : Type} {serve : (command : Command) → ω → ReplyTo command × ω} {state : ω} :
    (setup.perform (.get user id)).run serve state =
      match Found.ofReply (serve (.get (setup.entryKey user id)) state).1 with
      | .entry post => (some post, (serve (.get (setup.entryKey user id)) state).2)
      | .undecodable => (none, (serve (.del (setup.entryKey user id))
          (serve (.get (setup.entryKey user id)) state).2).2)
      | .nothing | .failed => (none, (serve (.get (setup.entryKey user id)) state).2) := by
  simp only [CacheSetup.perform, Dialogue.run]
  cases Found.ofReply (serve (.get (setup.entryKey user id)) state).1 <;> rfl

/-- Whatever the weather, the cache gives what it holds and holds nothing that it was not given, as
long as it is given regular posts. -/
theorem weatherCache_forgetful (setup : CacheSetup) :
    (weatherCache setup).ForgetfulFor Post.Regular (weatherPeek setup) where
  get user id state post answer := by
    obtain ⟨exposed, counts⟩ := state
    simp only [cacheOver] at answer
    rw [run_get] at answer
    cases found : Found.ofReply (exposed.serve (.get (setup.entryKey user id))).1 with
    | entry other =>
      rw [found] at answer
      cases answer
      exact Exposed.peek_of_arriving (Server.peek_eq_some.2 (Exposed.entry_of_get exposed found))
    | nothing =>
      rw [found] at answer
      cases answer
    | undecodable =>
      rw [found] at answer
      cases answer
    | failed =>
      rw [found] at answer
      cases answer
  get_keeps user id state u i post kept := by
    obtain ⟨exposed, counts⟩ := state
    have looked : ∀ {post},
        (exposed.serve (.get (setup.entryKey user id))).2.server.peek setup u i = some post →
          exposed.server.peek setup u i = some post := by
      intro post there
      rw [Exposed.peek_get] at there
      exact Exposed.peek_of_arriving there
    simp only [weatherPeek, cacheOver] at kept
    rw [run_get] at kept
    cases found : Found.ofReply (exposed.serve (.get (setup.entryKey user id))).1 with
    | undecodable =>
      -- the erasure that follows goes through the weather as well
      simp only [found, Exposed.peek_del] at kept
      split at kept
      · exact looked (Exposed.peek_of_arriving kept)
      · split at kept
        · cases kept
        · exact looked (Exposed.peek_of_arriving kept)
    | entry other => exact looked (by simpa only [found] using kept)
    | nothing => exact looked (by simpa only [found] using kept)
    | failed => exact looked (by simpa only [found] using kept)
  add user id added state u i post regular kept := by
    obtain ⟨exposed, counts⟩ := state
    simp only [weatherPeek, cacheOver, CacheSetup.perform, Dialogue.run,
      Exposed.peek_store regular] at kept
    split at kept
    · exact .inr (Exposed.peek_of_arriving kept)
    · split at kept
      · exact .inl (Option.some.inj kept).symm
      · exact .inr (Exposed.peek_of_arriving kept)
  remove user id state u i post kept := by
    obtain ⟨exposed, counts⟩ := state
    simp only [weatherPeek, cacheOver, CacheSetup.perform, Dialogue.run, Exposed.peek_del] at kept
    split at kept
    · exact Exposed.peek_of_arriving kept
    · split at kept
      · cases kept
      · exact Exposed.peek_of_arriving kept

/-- What the cache holds of a post after it was given one. -/
theorem peek_add (setup : CacheSetup) (exposed : Exposed) (counts : LookupCounts) (user id : String)
    {added : Post} (regular : added.Regular) :
    weatherPeek setup
        ((weatherCache setup).serve (.add user id added) (exposed, counts)).2 user id =
      if exposed.refuses then exposed.arriving.peek setup user id else some added := by
  simp only [weatherPeek, cacheOver, CacheSetup.perform, Dialogue.run, Exposed.peek_store regular,
    if_true]

/-- What the cache holds of a post after it was told to let go of it. -/
theorem peek_remove (setup : CacheSetup) (exposed : Exposed) (counts : LookupCounts)
    (user id : String) :
    weatherPeek setup ((weatherCache setup).serve (.remove user id) (exposed, counts)).2 user id =
      if exposed.refuses then exposed.arriving.peek setup user id else none := by
  simp only [weatherPeek, cacheOver, CacheSetup.perform, Dialogue.run, Exposed.peek_del, if_true]

/-- A post that is given takes the place of a copy unless that is refused. -/
theorem clears_add_iff {added : Post} (regular : added.Regular) :
    (weatherCache setup).Clears (weatherPeek setup) (exposed, counts) (.add user id added) ↔
      ¬ ∃ copy, exposed.refuses = true ∧ exposed.arriving.peek setup user id = some copy ∧
        Coordinator.owns user id copy = true ∧ copy ≠ added := by
  simp only [Cache.Clears, peek_add _ _ _ _ _ regular]
  cases exposed.refuses <;> simp

/-- The cache lets go of a copy unless that is refused. -/
theorem clears_remove_iff :
    (weatherCache setup).Clears (weatherPeek setup) (exposed, counts) (.remove user id) ↔
      ¬ ∃ copy, exposed.refuses = true ∧ exposed.arriving.peek setup user id = some copy ∧
        Coordinator.owns user id copy = true := by
  simp only [Cache.Clears, peek_remove]
  cases exposed.refuses <;> simp

end Cache

end Redis

end PostStore
