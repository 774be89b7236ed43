import PostStore.Postgres.Server
import PostStore.Store.Basic
import PostStore.Store.Cursor
/-!
# The store in a database

Posts are the rows of one table.  Every call is one statement on a connection.  A listing selects
page after page in the order of identifiers, and goes on behind the last one it has seen.
-/

namespace PostStore.Postgres

/-- What this store calls itself. -/
def storeName : String := "postgres"

/-- How many rows a page has unless told otherwise. -/
def defaultPageSize : Nat := 100

/-- How the store shows itself. -/
def shown (pageSize : Nat) : String :=
  "PostgresStorage \x7b page_size: " ++ toString pageSize ++ ", .. \x7d"

/-! ## Statements -/

/-- A dialogue with the database that may fail. -/
abbrev Talk (α : Type) := ExceptT StoreError (Dialogue Ask Ask.Reply) α

/-- The wording of a failure to get a connection. -/
def connectionReason (message : String) : String :=
  "Failed to get connection: Error occurred while creating a new object: " ++ message

/-- Gets a connection. -/
def connect : Talk Unit :=
  ExceptT.mk (.ask .connect fun reply =>
    .done (reply.mapError fun message => .backend storeName (connectionReason message)))

/-- Executes a statement on a connection. -/
def execute (statement : Statement) : Talk (List Row) := do
  connect
  ExceptT.mk (.ask (.execute statement) fun reply =>
    .done (reply.mapError fun message => .backend storeName message))

/-- The failure of a row with a bad column. -/
def badColumn (column : Nat) : StoreError :=
  .decode storeName ("error deserializing column " ++ toString column)

/-- The post in a row. -/
def decode (row : Row) : Except StoreError Post := row.toPost.mapError badColumn

/-- The post of a statement that finds at most one row. -/
def single (user id : String) (statement : Statement) : Talk Post := do
  match ← execute statement with
  | [] => throw (.notFound user id)
  | [row] => ExceptT.mk (.done (decode row))
  | _ => throw (.backend storeName "query returned an unexpected number of rows")

/-- Makes the table unless it is there. -/
def ensureTable : Talk Unit := do
  let _ ← execute .createTable

/-! ## Listings -/

/-- Where a listing goes on: behind an identifier. -/
structure Mark where
  user : String
  after : String := ""
  pageSize : Nat
  deriving DecidableEq

/-- A place in a listing. -/
abbrev Rows := Cursor Mark Row

/-- A number of rows as the limit of a statement, which has 64 bits with a sign. -/
def limitOf (pageSize : Nat) : Int := Int.bmod pageSize (Nat.pow 2 64)

/-- Selects a page. -/
def fetchPage (mark : Mark) : Talk (Cursor.Page Mark Row) := do
  let rows ← execute (.selectPage mark.user mark.after (limitOf mark.pageSize))
  match rows.getLast? with
  | none => return (rows, if rows.length < mark.pageSize then none else some mark)
  | some last =>
    match Column.text? last.id with
    | none => throw (badColumn 1)
    | some after =>
      return (rows, if rows.length < mark.pageSize then none else some { mark with after := after })

/-! ## The store -/

/-- The statement of a call. -/
def perform (pageSize : Nat) : (call : Call) → Talk (call.Result Rows)
  | .create user data fresh => do
    let post := Post.make user data fresh
    let _ ← execute (.insert post)
    return post
  | .read user id => single user id (.select user id)
  | .readAll user => return { mark := some { user := user, pageSize := pageSize } }
  | .update user id data clock => single user id (.update data clock.truncateToMicros user id)
  | .delete user id => do
    let _ ← execute (.delete user id)

/-- Runs statements on the server. -/
def converse {α : Type} (talk : Talk α) (server : Server) : Except StoreError α × Server :=
  Dialogue.run Server.serve talk.run server

/-- The store in a database, with pages of at least one row. -/
def store (pageSize : Nat) : Store Server Rows where
  name := storeName
  serve call := converse (perform (max 1 pageSize) call)
  feed := Cursor.feed (Cursor.atOnce fun mark => converse (fetchPage mark)) decode
    fun _ server => server.rowsLeft

end PostStore.Postgres
