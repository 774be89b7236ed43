import PostStore.Service.Error
import PostStore.Service.Response
import PostStore.Store.Basic
/-!
# The service

What clients call.  Arguments that must not be empty are checked first, in order, and nothing is
asked of the store when one is.  Then the store is called, and its failures are turned into what
clients may see.
-/

namespace PostStore.Service

variable {ω κ : Type}

/-- Refuses an empty argument. -/
def require (field value : String) : Except Refusal Unit :=
  if value = "" then .error (.reply (.invalidArgument (field ++ " must not be empty"))) else .ok ()

/-- Refuses an empty user or identifier. -/
def requireBoth (user id : String) : Except Refusal Unit := do
  require "user_id" user
  require "post_id" id

/-- Takes a step when the arguments are as they must be. -/
def guarded {α : Type} (check : Except Refusal Unit) (step : ω → Except Refusal α × ω) (state : ω) :
    Except Refusal α × ω :=
  match check with
  | .error refusal => (.error refusal, state)
  | .ok _ => step state

/-- Turns the result of a step of the store into what clients may see. -/
def present {α β : Type} (view : α → β) (step : ω → Except StoreError α × ω) (state : ω) :
    Except Refusal β × ω :=
  match step state with
  | (.ok value, state) => (.ok (view value), state)
  | (.error e, state) => (.error (.ofStore e), state)

/-- Makes a post. -/
def create (store : Store ω κ) (user data : String) (fresh : Fresh) :
    ω → Except Refusal Created × ω :=
  guarded (require "user_id" user) <|
    present (fun post : Post => ⟨post.id, post.createdAt⟩) (store.serve (.create user data fresh))

/-- Reads a post. -/
def read (store : Store ω κ) (user id : String) : ω → Except Refusal Shown × ω :=
  guarded (requireBoth user id) <| present Shown.mk (store.serve (.read user id))

/-- All posts of a user, read to the end. -/
def listAll (store : Store ω κ) (user : String) (state : ω) : Except StoreError (List Post) × ω :=
  match store.serve (.readAll user) state with
  | (.error e, state) => (.error e, state)
  | (.ok cursor, state) =>
    let (posts, _, state) := store.feed.collect cursor state
    (posts, state)

/-- Lists the posts of a user. -/
def readAll (store : Store ω κ) (user : String) : ω → Except Refusal Listing × ω :=
  guarded (require "user_id" user) <|
    present (fun posts : List Post => ⟨posts.map Shown.mk⟩) (listAll store user)

/-- Changes the text of a post. -/
def update (store : Store ω κ) (user id data : String) (clock : ClockReading) :
    ω → Except Refusal Updated × ω :=
  guarded (requireBoth user id) <|
    present (fun post : Post => ⟨post.id, post.updatedAt⟩)
      (store.serve (.update user id data clock))

/-- Removes a post. -/
def delete (store : Store ω κ) (user id : String) : ω → Except Refusal Unit × ω :=
  guarded (requireBoth user id) <| present (fun done : Unit => done) (store.serve (.delete user id))

end PostStore.Service
