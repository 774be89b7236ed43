import PostStore.Assertion
import PostStore.Fixture
import PostStore.Post.Supply
import PostStore.Store.Basic
/-!
# The conformance suite

Checks that every store must pass.  A check makes users of its own, named with identifiers that were
not used before, so the suite can run on a store that already holds posts.  A check ends early, and
has failed, at the first call or comparison that does not come out as it must.
-/

namespace PostStore.Conformance

variable {ω κ : Type}

/-- A check on a medium, with a supply of identifiers and clock readings. -/
abbrev Check (ω α : Type) := OptionT (StateM (ω × Supply)) α

/-! ## Steps -/

/-- Takes from the supply. -/
def takeFresh : Check ω Fresh := do
  let (state, supply) ← get
  set (state, supply.take.2)
  return supply.take.1

/-- Takes a step on the medium. -/
def step {α : Type} (change : ω → α × ω) : Check ω α := do
  let (state, supply) ← get
  let (value, state) := change state
  set (state, supply)
  return value

/-- Goes on only when something holds. -/
def expect (holds : Bool) : Check ω Unit := if holds then pure () else failure

/-- Goes on only with a success. -/
def unwrap {ε α : Type} : Except ε α → Check ω α
  | .ok value => pure value
  | .error _ => failure

/-- Goes on only when an assertion holds. -/
def assert (assertion : Except String Unit) : Check ω Unit := unwrap assertion

/-- A user that no other check uses. -/
def uniqueUser (label : String) : Check ω String := do
  let fresh ← takeFresh
  return Fixture.user label fresh.id

variable (store : Store ω κ)

/-- Makes a post. -/
def create (user data : String) : Check ω Post := do
  let fresh ← takeFresh
  unwrap (← step (store.serve (.create user data fresh)))

/-- Reads a post. -/
def read (user id : String) : Check ω Post := do
  unwrap (← step (store.serve (.read user id)))

/-- Changes the text of a post. -/
def update (user id data : String) : Check ω Post := do
  let fresh ← takeFresh
  unwrap (← step (store.serve (.update user id data fresh.clock)))

/-- Removes a post. -/
def delete (user id : String) : Check ω Unit := do
  unwrap (← step (store.serve (.delete user id)))

/-- Starts a listing. -/
def startListing (user : String) : Check ω κ := do
  unwrap (← step (store.serve (.readAll user)))

/-- Reads a listing to the end. -/
def listAll (user : String) : Check ω (List Post) := do
  let cursor ← startListing store user
  let result ← step fun state =>
    let (posts, _, state) := store.feed.collect cursor state
    (posts, state)
  unwrap result

/-- Advances a listing. -/
def next (cursor : κ) : Check ω (Bool × κ) :=
  step fun state =>
    let (more, cursor, state) := store.feed.next cursor state
    ((more, cursor), state)

/-- Checks that there is no such post to read. -/
def absentOnRead (user id : String) : Check ω Unit := do
  assert (Assertion.notFound (fun _ : Post => "") (← step (store.serve (.read user id))))

/-- Checks that there is no such post to change. -/
def absentOnUpdate (user id : String) : Check ω Unit := do
  let fresh ← takeFresh
  assert (Assertion.notFound (fun _ : Post => "")
    (← step (store.serve (.update user id "x" fresh.clock))))

/-! ## Checks -/

/-- What was made can be read. -/
def roundTrip : Check ω Unit := do
  let user ← uniqueUser "round-trip"
  let created ← create store user "hello"
  expect (created.user = user)
  expect (created.id ≠ "")
  expect (created.createdAt = created.updatedAt)
  assert (Assertion.samePost (← read store user created.id) created)

/-- What was never made or has been removed is not found. -/
def notFoundOnMiss : Check ω Unit := do
  let user ← uniqueUser "not-found"
  absentOnRead store user "never-created"
  absentOnUpdate store user "never-created"
  let created ← create store user "doomed"
  delete store user created.id
  absentOnRead store user created.id
  absentOnUpdate store user created.id

/-- Changes a post to each of some texts, and checks each change. -/
def updateThrough (user : String) (created previous : Post) : List String → Check ω Unit
  | [] => pure ()
  | data :: rest => do
    let updated ← update store user created.id data
    expect (updated.user = created.user)
    expect (updated.id = created.id)
    expect (updated.createdAt = created.createdAt)
    expect (updated.data = data)
    expect (previous.updatedAt < updated.updatedAt)
    expect (updated.createdAt ≤ updated.updatedAt)
    expect ((← read store user created.id) = updated)
    updateThrough user created updated rest

/-- A change replaces the text, keeps identity and time of creation, and moves the time of the last
change forward. -/
def updateSemantics : Check ω Unit := do
  let user ← uniqueUser "update"
  let created ← create store user "v0"
  updateThrough store user created created ["v1", "v2", "v3"]

/-- Removing twice, or what never was, succeeds. -/
def idempotentDelete : Check ω Unit := do
  let user ← uniqueUser "delete"
  let created ← create store user "bye"
  delete store user created.id
  delete store user created.id
  delete store user "never-created"

/-- Makes a post for each of some texts. -/
def createAll (user : String) : List String → Check ω (List Post)
  | [] => pure []
  | data :: rest => do
    let created ← create store user data
    let more ← createAll user rest
    return created :: more

/-- Takes all elements of a listing, advancing at most `limit` times; leaves the cursor where it
could not be advanced. -/
def takeAll : (limit : Nat) → κ → Check ω (List Post × κ)
  | 0, cursor => return ([], cursor)
  | limit + 1, cursor => do
    let (more, cursor) ← next store cursor
    if more then
      let (element, cursor) := store.feed.get cursor
      let post ← unwrap element
      let (posts, cursor) ← takeAll limit cursor
      return (post :: posts, cursor)
    else return ([], cursor)

/-- Posts in the order of their identifiers. -/
def sortById (posts : List Post) : List Post := posts.mergeSort fun a b => a.id ≤ b.id

/-- All posts come back, each once, and then no more. -/
def readAllExhaustion : Check ω Unit := do
  let user ← uniqueUser "read-all"
  let expected ← createAll store user ["d0", "d1", "d2", "d3", "d4", "d5", "d6"]
  let cursor ← startListing store user
  let limit ← step fun state => (store.feed.pending cursor state + 1, state)
  let (seen, cursor) ← takeAll store limit cursor
  let (more, _) ← next store cursor
  expect (!more)
  expect (sortById seen = sortById expected)

/-- A user without posts has an empty listing. -/
def readAllEmptyUser : Check ω Unit := do
  let user ← uniqueUser "empty"
  let cursor ← startListing store user
  let (more, cursor) ← next store cursor
  expect (!more)
  match (store.feed.get cursor).1 with
  | .error .misuse => pure ()
  | _ => failure

/-- Giving up a listing, also twice, is safe, and a new one starts over. -/
def readAllEarlyClose : Check ω Unit := do
  let user ← uniqueUser "early-close"
  let _ ← createAll store user ["d0", "d1", "d2"]
  let cursor ← startListing store user
  let (more, cursor) ← next store cursor
  expect more
  let (more, _) ← next store (store.feed.close (store.feed.close cursor))
  expect (!more)
  expect ((← listAll store user).length = 3)

/-- The posts of one user are out of reach of another. -/
def userIsolation : Check ω Unit := do
  let alice ← uniqueUser "alice"
  let bob ← uniqueUser "bob"
  let post ← create store alice "private"
  let _ ← create store bob "other"
  absentOnRead store bob post.id
  absentOnUpdate store bob post.id
  delete store bob post.id
  expect ((← read store alice post.id) = post)
  let posts ← listAll store bob
  expect (posts.length = 1)
  expect (posts.all fun p => p.user = bob)

/-- Makes and reads a post for each of some texts. -/
def storeEach (user : String) : List String → Check ω Unit
  | [] => pure ()
  | data :: rest => do
    let created ← create store user data
    expect ((← read store user created.id).data = data)
    storeEach user rest

/-- A text of many equal characters. -/
def longText (c : Char) (length : Nat) : String := String.ofList (List.replicate length c)

/-- Empty, long and foreign texts are kept as they are. -/
def storesDataVerbatim : Check ω Unit := do
  let user ← uniqueUser "verbatim"
  storeEach store user ["", "ünïcödé ✓ \"quoted\" #hash", longText 'x' 65536]

/-- Long users, and users with the separator of cache keys in them, are like any other. -/
def opaqueUserIds : Check ω Unit := do
  let label ← uniqueUser "long"
  let long := label ++ longText 'u' 600
  let created ← create store long "long"
  assert (Assertion.samePost (← read store long created.id) created)
  expect ((← listAll store long).length = 1)
  let base ← uniqueUser "hash"
  let owner := base ++ "#x"
  let created ← create store owner "secret"
  assert (Assertion.samePost (← read store owner created.id) created)
  absentOnRead store base ("x#" ++ created.id)
  assert (Assertion.samePost (← read store owner created.id) created)

/-- The life of a post from making to removal. -/
def exampleScenario : Check ω Unit := do
  let user ← uniqueUser "u1"
  let created ← create store user "hello"
  expect ((← read store user created.id).data = "hello")
  let _ ← update store user created.id "world"
  expect ((← read store user created.id).data = "world")
  delete store user created.id
  absentOnRead store user created.id
  delete store user created.id

/-- All checks, in the order in which the suite runs them. -/
def checks : List (String × Check ω Unit) := [
  ("round_trip", roundTrip store),
  ("not_found_on_miss", notFoundOnMiss store),
  ("update_semantics", updateSemantics store),
  ("idempotent_delete", idempotentDelete store),
  ("read_all_exhaustion", readAllExhaustion store),
  ("read_all_empty_user", readAllEmptyUser store),
  ("read_all_early_close", readAllEarlyClose store),
  ("user_isolation", userIsolation store),
  ("stores_data_verbatim", storesDataVerbatim store),
  ("opaque_user_ids", opaqueUserIds store),
  ("example_scenario", exampleScenario store)]

/-- Runs every check. -/
def runAll : Check ω Unit := (checks store).forM fun check => check.2

/-- The check with a name, or the whole suite. -/
def named (name : String) : Option (Check ω Unit) :=
  if name = "run_all" then some (runAll store) else (checks store).lookup name

end PostStore.Conformance
