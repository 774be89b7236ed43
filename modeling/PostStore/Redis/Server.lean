import PostStore.Bindings
import PostStore.Redis.Address
import PostStore.Redis.Reply
/-!
# The key-value server

The commands that are sent, and a small server of them: hashes whose fields keep the order in which
they came, and strings.  Replies can be queued; a command that meets a queued reply gets it and has
no effect.  The server remembers the commands it received.
-/

namespace PostStore.Redis

/-- A command. -/
inductive Command where
  | hset (key field : String) (value : Bytes)
  | hget (key field : String)
  | hdel (key field : String)
  | hscan (key : String) (cursor count : Nat)
  | set (key : String) (value : Bytes)
  | setEx (key : String) (seconds : Nat) (value : Bytes)
  | get (key : String)
  | del (key : String)
  deriving DecidableEq

/-- A command as it is sent. -/
def Command.arguments : Command → List Bytes
  | .hset key field value => ["HSET", key, field].map Text.utf8 ++ [value]
  | .hget key field => ["HGET", key, field].map Text.utf8
  | .hdel key field => ["HDEL", key, field].map Text.utf8
  | .hscan key cursor count =>
    ["HSCAN", key, toString cursor, "COUNT", toString count].map Text.utf8
  | .set key value => ["SET", key].map Text.utf8 ++ [value]
  | .setEx key seconds value => ["SETEX", key, toString seconds].map Text.utf8 ++ [value]
  | .get key => ["GET", key].map Text.utf8
  | .del key => ["DEL", key].map Text.utf8

/-- Enters the server.  It knows neither logins nor a database but the first, and speaks the second
version of the protocol only. -/
def Access.enter (access : Access) : Except String Unit :=
  if access.protocol = .third then .error (Problem.ofLine "ERR unknown command").message
  else if access.password ≠ none then .error "Password authentication failed- AuthenticationFailed"
  else if access.database ≠ 0 then .error "Redis server refused to switch database- ResponseError"
  else .ok ()

/-- The fields of a hash with their values. -/
abbrev Fields := Bindings String Bytes

/-- The state of the server. -/
structure Server where
  hashes : Bindings String Fields := []
  strings : Bindings String Bytes := []
  queued : List Reply := []
  received : List Command := []

namespace Server

/-- The fields of a hash. -/
def fields (server : Server) (key : String) : Fields := (server.hashes.get? key).getD []

/-- Replaces the fields of a hash. -/
def setFields (server : Server) (key : String) (fields : Fields) : Server :=
  { server with hashes := server.hashes.put key fields }

/-- Files a value under a field of a hash that moves to the end. -/
def refile (server : Server) (key field : String) (value : Bytes) : Server :=
  server.setFields key (((server.fields key).erase field).put field value)

/-- Files a string. -/
def setString (server : Server) (key : String) (value : Bytes) : Server :=
  { server with strings := server.strings.put key value }

/-- A part of the fields of a hash, and the cursor of the next part. -/
def scanReply (fields : Fields) (cursor count : Nat) : Reply :=
  let part := (fields.drop cursor).take count
  let next := cursor + part.length
  let position := if next < fields.length then next else 0
  .array [.bulk (Text.utf8 (toString position)),
    .array (part.flatMap fun field => [.bulk (Text.utf8 field.1), .bulk field.2])]

/-- What a command does. -/
def execute (server : Server) : Command → Reply × Server
  | .hset key field value =>
    let known := ((server.fields key).get? field).isSome
    (.int (if known then 0 else 1), server.setFields key ((server.fields key).put field value))
  | .hget key field =>
    match (server.fields key).get? field with
    | some value => (.bulk value, server)
    | none => (.nil, server)
  | .hdel key field =>
    match (server.fields key).get? field with
    | some _ => (.int 1, server.setFields key ((server.fields key).erase field))
    | none => (.int 0, server)
  | .hscan key cursor count => (scanReply (server.fields key) cursor count, server)
  | .set key value => (.status "OK", server.setString key value)
  | .setEx key _ value => (.status "OK", server.setString key value)
  | .get key =>
    match server.strings.get? key with
    | some value => (.bulk value, server)
    | none => (.nil, server)
  | .del key =>
    let known := (server.strings.get? key).isSome || (server.hashes.get? key).isSome
    (.int (if known then 1 else 0),
      { server with strings := server.strings.erase key, hashes := server.hashes.erase key })

/-- Serves a command. -/
def serve (command : Command) (server : Server) : Reply × Server :=
  let server := { server with received := command :: server.received }
  match server.queued with
  | reply :: rest => (reply, { server with queued := rest })
  | [] => server.execute command

end Server

/-! ## Bounds -/

mutual

/-- How many values a reply is made of. -/
def Reply.weight : Reply → Nat
  | .array items => weights items + 1
  | _ => 1

/-- How many values some replies are made of. -/
def weights : List Reply → Nat
  | [] => 0
  | item :: items => item.weight + weights items

end

/-- More than a scan of a hash can take commands, or find fields. -/
def Server.scanBound (server : Server) (key : String) : Nat :=
  weights server.queued + (server.fields key).length + 1

end PostStore.Redis
