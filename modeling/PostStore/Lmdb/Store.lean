import PostStore.Digest.Sha256
import PostStore.Lmdb.Environment
import PostStore.Post.Document
import PostStore.Store.Basic
import PostStore.Store.Cursor
/-!
# The store of documents in a file

The document of a post is filed under the digest of its user followed by the digest of its
identifier, so keys have one width and the posts of a user lie side by side.  Every call is one
transaction; a listing reads page after page, each in a transaction of its own, and goes on behind
the last key it has seen.
-/

namespace PostStore.Lmdb

/-- What this store calls itself. -/
def storeName : String := "lmdb"

/-! ## Keys and documents -/

/-- What the keys of a user's posts start with. -/
def userKey (user : String) : Bytes := Sha256.digest (Text.utf8 user)

/-- The key of a post. -/
def postKey (user id : String) : Bytes := userKey user ++ Sha256.digest (Text.utf8 id)

/-- The post in a stored document. -/
def decode (document : Bytes) : Except StoreError Post :=
  match Post.ofDocument document with
  | .ok post => .ok post
  | .error fault => .error (.decode storeName (fault.message document))

/-- The failure of a store whose file refuses. -/
def Failure.toStoreError (failure : Failure) : StoreError :=
  .backend storeName ("Transaction error: " ++ failure.message)

/-! ## Transactions -/

/-- A dialogue with the file that may fail. -/
abbrev Talk (α : Type) := ExceptT StoreError (Dialogue Ask Ask.Reply) α

/-- Asks the file; a refusal is a fault. -/
def callAs {ε : Type} (fault : Failure → ε) (question : Ask) :
    ExceptT ε (Dialogue Ask Ask.Reply) question.Result :=
  ExceptT.mk (.ask question fun reply => .done (reply.mapError fault))

/-- Asks the file. -/
abbrev call (question : Ask) : Talk question.Result := callAs Failure.toStoreError question

/-- Files a new post. -/
def insert (post : Post) : Talk Post := do
  call .beginWrite
  call (.put (postKey post.user post.id) post.toDocument)
  call .commit
  return post

/-- Reads a post. -/
def find (user id : String) : Talk Post := do
  call .beginRead
  match ← call (.get (postKey user id)) with
  | some document => ExceptT.mk (.done (decode document))
  | none => throw (.notFound user id)

/-- Changes the text of a post. -/
def modify (user id data : String) (clock : ClockReading) : Talk Post := do
  call .beginWrite
  match ← call (.get (postKey user id)) with
  | none => throw (.notFound user id)
  | some document =>
    match decode document with
    | .error e => throw e
    | .ok post =>
      match post.withData? data clock with
      | none => throw .noLaterInstant
      | some changed =>
        call (.put (postKey user id) changed.toDocument)
        call .commit
        return changed

/-- Removes a post. -/
def remove (user id : String) : Talk Unit := do
  call .beginWrite
  call (.erase (postKey user id))
  call .commit

/-! ## Listings -/

/-- Where a listing goes on: behind a key, or at the first of the user's. -/
structure Mark where
  owner : Bytes
  after : Option Bytes
  pageSize : Nat
  deriving DecidableEq

/-- A place in a listing. -/
abbrev Pages := Cursor Mark Bytes

/-- The question for the next entry. -/
abbrev Mark.seek (mark : Mark) : Ask := .seek (mark.after.getD mark.owner) mark.after.isNone

/-- A dialogue with the file that gives a page, or fails with a part of it got. -/
abbrev Reading := ExceptT (Cursor.Fault Bytes) (Dialogue Ask Ask.Reply) (Cursor.Page Mark Bytes)

/-- Asks the file, with some documents got. -/
abbrev callWith (got : List Bytes) (question : Ask) :
    ExceptT (Cursor.Fault Bytes) (Dialogue Ask Ask.Reply) question.Result :=
  callAs (fun failure => { error := failure.toStoreError, got := got }) question

/-- Reads on from a mark until there are no more documents of the user or as many more as there is
room for. -/
def readOn (got : List Bytes) : (room : Nat) → Mark → Reading
  | 0, mark => return (got, some mark)
  | room + 1, mark => do
    match ← callWith got mark.seek with
    | none => return (got, none)
    | some (key, document) =>
      if mark.owner.isPrefixOf key then
        readOn (got ++ [document]) room { mark with after := some key }
      else return (got, none)

/-- Reads the documents of a page, one after the other. -/
def fetchPage (mark : Mark) : Reading := do
  callWith [] .beginRead
  callWith [] .openRange
  readOn [] mark.pageSize mark

/-! ## The store -/

/-- The transaction of a call. -/
def perform (pageSize : Nat) : (call : Call) → Talk (call.Result Pages)
  | .create user data fresh => insert (Post.make user data fresh)
  | .read user id => find user id
  | .readAll user => return { mark := some ⟨userKey user, none, pageSize⟩ }
  | .update user id data clock => modify user id data clock
  | .delete user id => remove user id

/-- Runs a transaction; what it has not committed is forgotten. -/
def transact {ε α : Type} (talk : ExceptT ε (Dialogue Ask Ask.Reply) α) (env : Environment) :
    Except ε α × Environment :=
  let (result, env) := Dialogue.run Environment.serve talk.run env
  (result, env.abandon)

/-- How many documents a page has unless told otherwise. -/
def defaultPageSize : Nat := 256

/-- The store of documents in a file, with pages of at least one document. -/
def store (pageSize : Nat) : Store Environment Pages where
  name := storeName
  serve call := transact (perform (max 1 pageSize) call)
  feed := Cursor.feed (fun mark => transact (fetchPage mark)) decode fun _ env => env.entries.length

end PostStore.Lmdb
