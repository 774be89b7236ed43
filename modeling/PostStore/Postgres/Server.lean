import PostStore.Postgres.Statement
/-!
# The database server

What can be asked of a database: a connection, and the execution of a statement.  The server here
answers from a script, one entry for each statement; an entry can also turn a connection away.  The
one connection that is made is kept.
-/

namespace PostStore.Postgres

/-- What can be asked of the database. -/
inductive Ask where
  | connect
  | execute (statement : Statement)
  deriving DecidableEq

/-- What is given when the database does not refuse. -/
abbrev Ask.Result : Ask → Type
  | .connect => Unit
  | .execute _ => List Row

/-- The reply to a question; a refusal has a message. -/
abbrev Ask.Reply (question : Ask) : Type := Except String question.Result

/-- What the script says. -/
inductive Entry where
  | rows (rows : List Row)
  | failure
  | reject
  deriving DecidableEq

/-- How many rows an entry has. -/
def Entry.length : Entry → Nat
  | .rows found => found.length
  | _ => 0

/-- The state of the server. -/
structure Server where
  script : List Entry := []
  /-- Why no connection gets as far as the server, if none does. -/
  barrier : Option String := none
  connected : Bool := false
  executed : List Statement := []

namespace Server

/-- The largest number of connections that a pool can be laid out for. -/
def largestPool : Nat := Nat.pow 2 55

/-- The message of every error that the server itself signals. -/
def errorMessage : String := "db error"

/-- Makes the connection, unless there is one. -/
def connect (server : Server) : Except String Unit × Server :=
  if server.connected then (.ok (), server)
  else
    match server.barrier, server.script with
    | some message, _ => (.error message, server)
    | none, .reject :: rest => (.error errorMessage, { server with script := rest })
    | none, _ => (.ok (), { server with connected := true })

/-- Executes a statement. -/
def execute (server : Server) (statement : Statement) : Except String (List Row) × Server :=
  let server := { server with executed := statement :: server.executed }
  match server.script with
  | .rows rows :: rest => (.ok rows, { server with script := rest })
  | _ :: rest => (.error errorMessage, { server with script := rest })
  | [] => (.error errorMessage, server)

/-- Serves questions. -/
def serve : (question : Ask) → Server → question.Reply × Server
  | .connect, server => server.connect
  | .execute statement, server => server.execute statement

/-- How many connections are kept. -/
def poolSize (server : Server) : Nat := if server.connected then 1 else 0

/-- How many rows the script still has. -/
def rowsLeft (server : Server) : Nat :=
  server.script.foldr (fun entry left => entry.length + left) 0

end Server

end PostStore.Postgres
