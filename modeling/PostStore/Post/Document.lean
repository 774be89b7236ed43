import PostStore.Json.Members
import PostStore.Post.Basic
/-!
# Posts as documents

The form in which posts are kept in stores of documents: a structure with the members `userID`,
`postID`, `data`, `createdAt` and `updatedAt`.
-/

namespace PostStore.Post

open Json

/-- The members of the document of a post. -/
def members : List Member :=
  [.text "userID", .text "postID", .text "data", .instant "createdAt", .instant "updatedAt"]

/-- The values of the members. -/
def toValues (post : Post) : Values members :=
  (post.user, post.id, post.data, post.createdAt, post.updatedAt, ())

/-- The post with the given values of the members. -/
def ofValues : Values members → Post
  | (user, id, data, createdAt, updatedAt, ()) => ⟨user, id, data, createdAt, updatedAt⟩

/-- Reads a post. -/
def read : Reader Post := fun bytes =>
  match readStruct "Record" members bytes with
  | .error fault => .error fault
  | .ok (values, rest) => .ok (ofValues values, rest)

/-- The document of a post. -/
def toDocument (post : Post) : Bytes := writeStruct members post.toValues

/-- The post in a document. -/
def ofDocument (document : Bytes) : Except Fault Post := readDocument read document

/-- The members determine the post. -/
theorem ofValues_toValues (post : Post) : ofValues post.toValues = post := rfl

end PostStore.Post
