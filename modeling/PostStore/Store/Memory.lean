import PostStore.Bindings
import PostStore.Store.Basic
import PostStore.Store.Cursor
/-!
# The store in memory

Posts in two levels, by user and then by identifier.  A user without posts has no entry.  A listing
is a snapshot.

This is what the lock of the store guards.  A change of a post that no instant follows has no answer
but kills its caller while it holds the lock: `noLaterInstant` stands for that.  All calls after it
fail then, as `Store.locked` says.
-/

namespace PostStore

/-- The posts of each user. -/
structure Memory where
  users : Bindings String (Bindings String Post) := []

namespace Memory

/-- The posts of a user. -/
def posts (memory : Memory) (user : String) : Bindings String Post :=
  (memory.users.get? user).getD []

/-- The post of a user under an identifier. -/
def find? (memory : Memory) (user id : String) : Option Post := (memory.posts user).get? id

/-- Replaces the posts of a user. -/
def setPosts (memory : Memory) (user : String) (posts : Bindings String Post) : Memory :=
  if posts.isEmpty then ⟨memory.users.erase user⟩ else ⟨memory.users.put user posts⟩

/-- Files a post under a user and an identifier. -/
def insert (memory : Memory) (user id : String) (post : Post) : Memory :=
  memory.setPosts user ((memory.posts user).put id post)

/-- Removes the post of a user under an identifier. -/
def remove (memory : Memory) (user id : String) : Memory :=
  memory.setPosts user ((memory.posts user).erase id)

/-- How many posts there are. -/
def size (memory : Memory) : Nat := memory.users.foldr (fun user size => user.2.length + size) 0

/-- Removes all posts. -/
def clear (_ : Memory) : Memory := {}

/-- Serves calls, as long as no caller has died. -/
def serve : (call : Call) → Memory → call.Answer Snapshot × Memory
  | .create user data fresh, memory =>
    let post := Post.make user data fresh
    (.ok post, memory.insert user post.id post)
  | .read user id, memory =>
    match memory.find? user id with
    | some post => (.ok post, memory)
    | none => (.error (.notFound user id), memory)
  | .readAll user, memory => (.ok (Snapshot.ofList ((memory.posts user).map Prod.snd)), memory)
  | .update user id data clock, memory =>
    match memory.find? user id with
    | none => (.error (.notFound user id), memory)
    | some post =>
      match post.withData? data clock with
      | none => (.error .noLaterInstant, memory)
      | some changed => (.ok changed, memory.insert user id changed)
  | .delete user id, memory => (.ok (), memory.remove user id)

/-- The store in memory, without its lock. -/
def store : Store Memory Snapshot where
  name := "memory"
  serve := serve
  feed := Snapshot.feed

/-! ## Lookups -/

/-- Replacing the posts of a user replaces them and no others. -/
theorem posts_setPosts (memory : Memory) (user user' : String) (posts : Bindings String Post) :
    (memory.setPosts user posts).posts user' =
      if user = user' then posts else memory.posts user' := by
  unfold setPosts Memory.posts
  by_cases empty : posts.isEmpty = true
  · rw [if_pos empty]
    simp only [Bindings.get?_erase]
    split
    · simp [List.isEmpty_iff.1 empty]
    · rfl
  · rw [if_neg empty]
    simp only [Bindings.get?_put]
    split <;> rfl

/-- A post that has been filed is found where it was filed, and all others as before. -/
theorem find?_insert (memory : Memory) (user id user' id' : String) (post : Post) :
    (memory.insert user id post).find? user' id' =
      if user = user' ∧ id = id' then some post else memory.find? user' id' := by
  unfold insert find?
  rw [posts_setPosts]
  by_cases sameUser : user = user'
  · subst sameUser
    simp [Bindings.get?_put]
  · simp [sameUser]

/-- A post that has been removed is not found, and all others as before. -/
theorem find?_remove (memory : Memory) (user id user' id' : String) :
    (memory.remove user id).find? user' id' =
      if user = user' ∧ id = id' then none else memory.find? user' id' := by
  unfold remove find?
  rw [posts_setPosts]
  by_cases sameUser : user = user'
  · subst sameUser
    simp [Bindings.get?_erase]
  · simp [sameUser]

end Memory

end PostStore
