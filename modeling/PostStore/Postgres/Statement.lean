import PostStore.Post.Basic
import PostStore.Text.Bytes
/-!
# Statements and rows

The statements that are sent to the database, with their texts and parameters; and the rows that
come back, whose columns are bytes: text in UTF-8, and times as eight bytes of microseconds
since 2000.
-/

namespace PostStore.Postgres

/-! ## Statements -/

/-- A statement with its parameters. -/
inductive Statement where
  | createTable
  | insert (post : Post)
  | select (user id : String)
  | selectPage (user after : String) (limit : Int)
  | update (data : String) (time : Instant) (user id : String)
  | delete (user id : String)
  deriving DecidableEq

/-- A parameter of a statement. -/
inductive Parameter where
  | text (value : String)
  | time (value : Instant)
  | number (value : Int)
  deriving DecidableEq

/-- The text of a statement. -/
def Statement.text : Statement → String
  | .createTable =>
    "CREATE TABLE IF NOT EXISTS post (\n" ++
    "    user_id    TEXT        NOT NULL,\n" ++
    "    post_id    TEXT        NOT NULL,\n" ++
    "    data       TEXT        NOT NULL,\n" ++
    "    created_at TIMESTAMPTZ NOT NULL,\n" ++
    "    updated_at TIMESTAMPTZ NOT NULL,\n" ++
    "    PRIMARY KEY (user_id, post_id)\n)"
  | .insert _ =>
    "INSERT INTO post (user_id, post_id, data, created_at, updated_at) " ++
    "VALUES ($1, $2, $3, $4, $5)"
  | .select .. =>
    "SELECT user_id, post_id, data, created_at, updated_at " ++
    "FROM post WHERE user_id = $1 AND post_id = $2"
  | .selectPage .. =>
    "SELECT user_id, post_id, data, created_at, updated_at " ++
    "FROM post WHERE user_id = $1 AND post_id > $2 ORDER BY post_id LIMIT $3"
  | .update .. =>
    "UPDATE post SET data = $1, updated_at = GREATEST($2, updated_at + " ++
    "interval '1 microsecond') " ++
    "WHERE user_id = $3 AND post_id = $4 " ++
    "RETURNING user_id, post_id, data, created_at, updated_at"
  | .delete .. => "DELETE FROM post WHERE user_id = $1 AND post_id = $2"

/-- The parameters of a statement, in order. -/
def Statement.parameters : Statement → List Parameter
  | .createTable => []
  | .insert post =>
    [.text post.user, .text post.id, .text post.data, .time post.createdAt, .time post.updatedAt]
  | .select user id => [.text user, .text id]
  | .selectPage user after limit => [.text user, .text after, .number limit]
  | .update data time user id => [.text data, .time time, .text user, .text id]
  | .delete user id => [.text user, .text id]

/-! ## Rows -/

/-- A column: bytes, unless it is null. -/
abbrev Column := Option Bytes

/-- A row of the table. -/
structure Row where
  user : Column
  id : Column
  data : Column
  createdAt : Column
  updatedAt : Column
  deriving DecidableEq

/-- The seconds from 1970 to 2000. -/
def epochSeconds : Int := 946684800

/-- The number in some bytes, most significant first, in two's complement. -/
def signedOfBytes (bytes : Bytes) : Int :=
  let n : Nat := bytes.foldl (fun n b => n * 256 + b.toNat) 0
  if n < Nat.pow 2 (8 * bytes.length - 1) then n else n - Nat.pow 2 (8 * bytes.length)

/-- The column of a time given in microseconds since 1970. -/
def timeColumn (micros : Int) : Column :=
  let n := ((micros - epochSeconds * 1000000) % Nat.pow 2 64).toNat
  some ((List.range 8).map fun i => UInt8.ofNat (n / Nat.pow 256 (7 - i) % 256))

/-- The column of a text. -/
def textColumn (text : String) : Column := some (Text.utf8 text)

/-- The row of a post. -/
def Row.ofPost (post : Post) : Row :=
  ⟨textColumn post.user, textColumn post.id, textColumn post.data,
    timeColumn post.createdAt.toMicros, timeColumn post.updatedAt.toMicros⟩

/-- The text in a column. -/
def Column.text? (column : Column) : Option String := column.bind Text.ofUtf8?

/-- The time in a column. -/
def Column.time? (column : Column) : Option Instant :=
  column.bind fun bytes =>
    if bytes.length = 8 then Instant.ofMicros? (signedOfBytes bytes + epochSeconds * 1000000)
    else none

/-- The post in a row, or the number of the first column that does not hold what it must. -/
def Row.toPost (row : Row) : Except Nat Post :=
  let or {α : Type} (value : Option α) (column : Nat) : Except Nat α :=
    match value with
    | some a => .ok a
    | none => .error column
  do
    let user ← or (Column.text? row.user) 0
    let id ← or (Column.text? row.id) 1
    let data ← or (Column.text? row.data) 2
    let createdAt ← or (Column.time? row.createdAt) 3
    let updatedAt ← or (Column.time? row.updatedAt) 4
    return ⟨user, id, data, createdAt, updatedAt⟩

end PostStore.Postgres
