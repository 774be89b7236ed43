import PostStore.Cache.Basic
import PostStore.Store.Basic
/-!
# The coordinator

A store with a cache in front of it is again a store.  A post is looked for in the cache and then in
the store; what is found or made is added to the cache; a change or a removal takes the entry out.
Two posts can share a cache key, so an entry counts only when it is of the post asked for.  Failures
of the store are passed on as they are, and cache trouble can only look like a miss.

Each call is a dialogue with the store and the cache, so that calls of several clients can be taken
in turns.
-/

namespace PostStore

/-- What the coordinator asks. -/
inductive Coordinator.Ask where
  | store (call : Call)
  | cache (call : CacheCall)

/-- What it gets back. -/
abbrev Coordinator.Ask.Reply (κ : Type) : Coordinator.Ask → Type
  | .store call => call.Answer κ
  | .cache call => call.Answer

namespace Coordinator

variable {κ : Type}

/-- A dialogue of the coordinator. -/
abbrev Talk (κ α : Type) := Dialogue Ask (Ask.Reply κ) α

/-- Calls the store. -/
def callStore (call : Call) : Talk κ (call.Answer κ) := .ask (.store call) .done

/-- Calls the cache. -/
def callCache (call : CacheCall) : Talk κ call.Answer := .ask (.cache call) .done

/-- Whether a post is the one asked for. -/
def owns (user id : String) (post : Post) : Bool := post.user = user && post.id = id

/-- Reads from the store and adds what was found to the cache. -/
def readThrough (user id : String) : Talk κ (Except StoreError Post) := do
  match ← callStore (.read user id) with
  | .error e => return .error e
  | .ok post =>
    callCache (.add user id post)
    return .ok post

/-- Handles a call. -/
def perform : (call : Call) → Talk κ (call.Answer κ)
  | .create user data fresh => do
    match ← callStore (.create user data fresh) with
    | .error e => return .error e
    | .ok post =>
      callCache (.add user post.id post)
      return .ok post
  | .read user id => do
    match ← callCache (.get user id) with
    | some post => if owns user id post then return .ok post else readThrough user id
    | none => readThrough user id
  | .readAll user => callStore (.readAll user)
  | .update user id data clock => do
    match ← callStore (.update user id data clock) with
    | .error e => return .error e
    | .ok post =>
      callCache (.remove user id)
      return .ok post
  | .delete user id => do
    let result ← callStore (.delete user id)
    callCache (.remove user id)
    return result

/-- Serves the coordinator from a store and a cache of one medium. -/
def serve {ω : Type} (store : Store ω κ) (cache : Cache ω) :
    (question : Ask) → ω → question.Reply κ × ω
  | .store call, state => store.serve call state
  | .cache call, state => cache.serve call state

end Coordinator

/-- A store with a cache in front of it. -/
def Store.behind {ω κ : Type} (store : Store ω κ) (cache : Cache ω) : Store ω κ where
  name := store.name
  serve call := (Coordinator.perform call).run (Coordinator.serve store cache)
  feed := store.feed

end PostStore
