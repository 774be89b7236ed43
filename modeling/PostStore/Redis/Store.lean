import PostStore.Post.Document
import PostStore.Redis.Server
import PostStore.Store.Basic
import PostStore.Store.Cursor
/-!
# The store in a key-value server

The posts of a user are the fields of one hash, each a document.  A listing scans the hash; a scan
may give a field more than once, and only the first counts.
-/

namespace PostStore.Redis

/-- What this store calls itself. -/
def storeName : String := "redis"

/-- The setup of the store; there is no prefix that holds when none is given. -/
structure StoreSetup where
  keyPrefix : String
  scanCount : Nat := 100

/-- The setup with another count of fields to ask for in a scan, at least one. -/
def StoreSetup.withScanCount (setup : StoreSetup) (count : Nat) : StoreSetup :=
  { setup with scanCount := max count 1 }

/-- The key of the hash of a user's posts. -/
def StoreSetup.userKey (setup : StoreSetup) (user : String) : String := setup.keyPrefix ++ user

/-- How the store shows itself. -/
def StoreSetup.text (setup : StoreSetup) : String :=
  "RedisStorage \x7b key_prefix: " ++ Text.quote setup.keyPrefix ++ ", scan_count: " ++
    toString setup.scanCount ++ ", .. \x7d"

/-! ## Commands -/

/-- The reply to any command. -/
abbrev ReplyTo (_ : Command) : Type := Reply

/-- A dialogue with the server that may fail. -/
abbrev Talk (α : Type) := ExceptT StoreError (Dialogue Command ReplyTo) α

/-- The failure of a store that got a bad reply. -/
def Problem.toStoreError (problem : Problem) : StoreError := .backend storeName problem.message

/-- The result of understanding a reply. -/
def understand {α : Type} (reply : Except Problem α) : Talk α :=
  ExceptT.mk (.done (reply.mapError Problem.toStoreError))

/-- Sends a command; a signalled error is a failure. -/
def send (command : Command) : Talk Reply :=
  ExceptT.mk (.ask command fun reply => .done (reply.checked.mapError Problem.toStoreError))

/-- The post in a stored document. -/
def decode (document : String) : Except StoreError Post :=
  let bytes := Text.utf8 document
  match Post.ofDocument bytes with
  | .ok post => .ok post
  | .error fault => .error (.decode storeName (fault.message bytes))

variable (setup : StoreSetup)

/-- Files a post where its own user and identifier say. -/
def file (post : Post) : Talk Post := do
  let _ ← send (.hset (setup.userKey post.user) post.id post.toDocument)
  return post

/-- Reads a post. -/
def find (user id : String) : Talk Post := do
  let reply ← send (.hget (setup.userKey user) id)
  match ← understand reply.toText? with
  | some document => ExceptT.mk (.done (decode document))
  | none => throw (.notFound user id)

/-- Changes the text of a post: reads it, and files it again. -/
def modify (user id data : String) (clock : ClockReading) : Talk Post := do
  let post ← find setup user id
  match post.withData? data clock with
  | none => throw .noLaterInstant
  | some changed => file setup changed

/-- Removes a post. -/
def remove (user id : String) : Talk Unit := do
  let _ ← send (.hdel (setup.userKey user) id)

/-! ## Listings -/

/-- Where a scan goes on, and the fields it has given so far. -/
structure Mark where
  key : String
  count : Nat
  cursor : Nat := 0
  seen : List String := []
  deriving DecidableEq

/-- A place in a listing. -/
abbrev Scan := Cursor Mark String

/-- The values of the fields not seen before, and all fields seen; a field without a value at the
end is dropped. -/
def unseen : (seen : List String) → (flat : List String) → List String × List String
  | seen, field :: value :: rest =>
    if field ∈ seen then unseen seen rest
    else
      let (values, seen) := unseen (field :: seen) rest
      (value :: values, seen)
  | seen, _ => ([], seen)

/-- Scans until a field not seen before is found or the scan is over, with at most `limit`
commands. -/
def fill : (limit : Nat) → Mark → Talk (Cursor.Page Mark String)
  | 0, _ => return ([], none)
  | limit + 1, mark => do
    let reply ← send (.hscan mark.key mark.cursor mark.count)
    let (cursor, flat) ← understand reply.toScan
    let (values, seen) := unseen mark.seen flat
    let next := { mark with cursor := cursor, seen := seen }
    if cursor = 0 then return (values, none)
    else if values.isEmpty then fill limit next
    else return (values, some next)

/-! ## The store -/

/-- The commands of a call. -/
def perform : (call : Call) → Talk (call.Result Scan)
  | .create user data fresh => file setup (Post.make user data fresh)
  | .read user id => find setup user id
  | .readAll user => return { mark := some { key := setup.userKey user, count := setup.scanCount } }
  | .update user id data clock => modify setup user id data clock
  | .delete user id => remove setup user id

/-- Runs commands on the server. -/
def converse {α : Type} (talk : Talk α) (server : Server) : Except StoreError α × Server :=
  Dialogue.run Server.serve talk.run server

/-- The store in a key-value server. -/
def store : Store Server Scan where
  name := storeName
  serve call := converse (perform setup call)
  feed := Cursor.feed
    (Cursor.atOnce fun mark server => converse (fill (server.scanBound mark.key) mark) server)
    decode fun mark server => server.scanBound mark.key

end PostStore.Redis
