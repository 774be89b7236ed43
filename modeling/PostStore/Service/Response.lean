import PostStore.Post.Document
/-!
# What the service answers

The answers that clients get, and their documents.
-/

namespace PostStore

open Json

/-- The answer to making a post. -/
structure Created where
  id : String
  createdAt : Instant
  deriving DecidableEq

/-- The answer to changing a post. -/
structure Updated where
  id : String
  updatedAt : Instant
  deriving DecidableEq

/-- The members of the document of a `Created`. -/
def Created.members : List Member := [.text "postId", .instant "createdAt"]

/-- Reads a `Created`. -/
def Created.read : Reader Created := fun bytes =>
  match readStruct "CreateResponse" members bytes with
  | .error fault => .error fault
  | .ok ((id, createdAt, ()), rest) => .ok (⟨id, createdAt⟩, rest)

/-- The written form of a `Created`. -/
def Created.write (answer : Created) : Bytes :=
  writeStruct members (answer.id, answer.createdAt, ())

/-- The members of the document of an `Updated`. -/
def Updated.members : List Member := [.text "postId", .instant "updatedAt"]

/-- Reads an `Updated`. -/
def Updated.read : Reader Updated := fun bytes =>
  match readStruct "UpdateResponse" members bytes with
  | .error fault => .error fault
  | .ok ((id, updatedAt, ()), rest) => .ok (⟨id, updatedAt⟩, rest)

/-- The written form of an `Updated`. -/
def Updated.write (answer : Updated) : Bytes :=
  writeStruct members (answer.id, answer.updatedAt, ())

/-- A post as it is shown to clients. -/
structure Shown where
  post : Post
  deriving DecidableEq

/-- The members of the document of a shown post. -/
def Shown.members : List Member :=
  [.text "userId", .text "postId", .text "data", .instant "createdAt", .instant "updatedAt"]

/-- Reads a shown post. -/
def Shown.read : Reader Shown := fun bytes =>
  match readStruct "PostResponse" members bytes with
  | .error fault => .error fault
  | .ok ((user, id, data, createdAt, updatedAt, ()), rest) =>
    .ok (⟨⟨user, id, data, createdAt, updatedAt⟩⟩, rest)

/-- The written form of a shown post. -/
def Shown.write (shown : Shown) : Bytes :=
  let post := shown.post
  writeStruct members (post.user, post.id, post.data, post.createdAt, post.updatedAt, ())

/-- The answer to listing a user's posts. -/
structure Listing where
  posts : List Shown
  deriving DecidableEq

/-- The members of the document of a listing. -/
def Listing.members : List Member :=
  [⟨"posts", List Shown, readList Shown.read, writeList Shown.write⟩]

/-- Reads a listing. -/
def Listing.read : Reader Listing := fun bytes =>
  match readStruct "ReadAllResponse" members bytes with
  | .error fault => .error fault
  | .ok ((posts, ()), rest) => .ok (⟨posts⟩, rest)

/-- The written form of a listing. -/
def Listing.write (listing : Listing) : Bytes := writeStruct members (listing.posts, ())

end PostStore
