import PostStore.Cache.Basic
import PostStore.Calendar.Duration
import PostStore.Post.Document
import PostStore.Redis.Store
/-!
# The cache in a key-value server

Each entry is a string with the document of a post, perhaps with a lifetime.  Failures are passed
over; an entry that is no document counts as a miss and is deleted.
-/

namespace PostStore.Redis

/-- The setup of the cache. -/
structure CacheSetup where
  keyPrefix : String := "crudstore:cache:"
  lifetime : Option Duration := none

namespace CacheSetup

/-- The setup with other starts of keys. -/
def withKeyPrefix (setup : CacheSetup) (text : String) : CacheSetup :=
  { setup with keyPrefix := text }

/-- The setup with a lifetime of entries; one of zero means for ever. -/
def withLifetime (setup : CacheSetup) (lifetime : Duration) : CacheSetup :=
  { setup with lifetime := if lifetime.nanos = 0 then none else some lifetime }

/-- The key of an entry. -/
def entryKey (setup : CacheSetup) (user id : String) : String :=
  setup.keyPrefix ++ Post.cacheKey user id

/-- How the cache shows itself. -/
def text (setup : CacheSetup) : String :=
  let lifetime := match setup.lifetime with
    | none => "None"
    | some d => "Some(" ++ d.text ++ ")"
  "RedisCache \x7b config: RedisCacheConfig \x7b key_prefix: " ++ Text.quote setup.keyPrefix ++
    ", ttl: " ++ lifetime ++ " \x7d, .. \x7d"

end CacheSetup

/-! ## Commands -/

/-- What a lookup found under a key. -/
inductive Found where
  | nothing
  | entry (post : Post)
  | undecodable
  | failed

/-- What the reply to a lookup means. -/
def Found.ofReply (reply : Reply) : Found :=
  match reply.checked.bind Reply.toBytes? with
  | .error _ => .failed
  | .ok none => .nothing
  | .ok (some document) =>
    match Post.ofDocument document with
    | .ok post => .entry post
    | .error _ => .undecodable

/-- The command that stores an entry. -/
def CacheSetup.storeCommand (setup : CacheSetup) (key : String) (post : Post) : Command :=
  match setup.lifetime with
  | some lifetime => .setEx key (max lifetime.wholeSeconds 1) post.toDocument
  | none => .set key post.toDocument

/-- The commands of a call. -/
def CacheSetup.perform (setup : CacheSetup) :
    (call : CacheCall) → Dialogue Command ReplyTo call.Answer
  | .get user id =>
    let key := setup.entryKey user id
    .ask (.get key) fun reply =>
      match Found.ofReply reply with
      | .entry post => .done (some post)
      | .undecodable => .ask (.del key) fun _ => .done none
      | .nothing | .failed => .done none
  | .add user id post => .ask (setup.storeCommand (setup.entryKey user id) post) fun _ => .done ()
  | .remove user id => .ask (.del (setup.entryKey user id)) fun _ => .done ()

/-! ## The cache -/

/-- How often lookups found an entry, and how often not.  The counters have 64 bits; here they count
on, so they are exact as long as there were fewer than `2 ^ 64` lookups. -/
structure LookupCounts where
  hits : Nat := 0
  misses : Nat := 0
  deriving DecidableEq

/-- The counts after a call. -/
def LookupCounts.count (counts : LookupCounts) : (call : CacheCall) → call.Answer → LookupCounts
  | .get .., some _ => { counts with hits := counts.hits + 1 }
  | .get .., none => { counts with misses := counts.misses + 1 }
  | .add .., _ => counts
  | .remove .., _ => counts

/-- The cache in a key-value server. -/
def cache (setup : CacheSetup) : Cache (Server × LookupCounts) where
  name := "redis"
  serve call state :=
    let (answer, server) := (setup.perform call).run Server.serve state.1
    (answer, server, state.2.count call answer)
  stats state := { hits := state.2.hits, misses := state.2.misses }

end PostStore.Redis
