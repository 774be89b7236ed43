import PostStore.Cache.Basic
import PostStore.Store.Basic
/-!
# Layers around stores and caches

A store that always fails, a store behind a lock, a store that counts the calls that reach it, and
stores and caches whose calls are noted in a journal.  A journal can hold a failure that the next
call of the store meets instead of reaching the store.
-/

namespace PostStore

/-! ## Failing -/

/-- The failure of the store that always fails. -/
def Store.failure : StoreError := .backend "failing" "backend unavailable"

/-- A store that fails on every call. -/
def Store.failing {σ κ : Type} (feed : Feed σ κ) : Store σ κ where
  name := "failing"
  serve call state := (call.fail Store.failure, state)
  feed := feed

/-! ## Locking -/

/-- What a lock guards, and whether a caller died while it held the lock. -/
structure Locked (σ : Type) where
  inner : σ
  poisoned : Bool := false

/-- What is guarded, as a part of it and its lock. -/
def Locked.part {σ : Type} : Part (Locked σ) σ :=
  ⟨(·.inner), fun inner locked => { locked with inner := inner }⟩

/-- Whether a caller dies instead of getting an answer. -/
def Call.dies {κ : Type} (call : Call) (answer : call.Answer κ) : Bool :=
  match answer with
  | .error .noLaterInstant => true
  | _ => false

/-- A store behind a lock.  Once a caller has died, all calls fail. -/
def Store.locked {σ κ : Type} (store : Store σ κ) : Store (Locked σ) κ :=
  { store.within Locked.part with
    serve := fun call locked =>
      if locked.poisoned then (call.fail .lockPoisoned, locked)
      else
        let (answer, inner) := store.serve call locked.inner
        (answer, ⟨inner, call.dies answer⟩) }

/-! ## Counting -/

/-- How many calls have reached a store. -/
structure CallCounts where
  reads : Nat := 0
  writes : Nat := 0
  deriving DecidableEq

/-- Whether a call changes nothing. -/
def Call.isRead : Call → Bool
  | .read .. | .readAll _ => true
  | _ => false

/-- The counts after one more call. -/
def CallCounts.count (counts : CallCounts) (call : Call) : CallCounts :=
  if call.isRead then { counts with reads := counts.reads + 1 }
  else { counts with writes := counts.writes + 1 }

/-- A store that counts the calls that reach it. -/
def Store.counted {ω κ : Type} (store : Store ω κ) (counts : Part ω CallCounts) : Store ω κ where
  name := store.name
  serve call state := store.serve call (counts.set ((counts.get state).count call) state)
  feed := store.feed

/-! ## Noting -/

/-- A call that was noted; of a lookup in a cache also whether it found something. -/
inductive Noted where
  | store (call : Call)
  | lookup (user id : String) (found : Bool)
  | cache (call : CacheCall)
  deriving DecidableEq

/-- The name of a noted call. -/
def Noted.name : Noted → String
  | .store (.create ..) => "storage.create"
  | .store (.read ..) => "storage.read"
  | .store (.readAll _) => "storage.read_all"
  | .store (.update ..) => "storage.update"
  | .store (.delete ..) => "storage.delete"
  | .lookup .. => "cache.get"
  | .cache (.get ..) => "cache.get"
  | .cache (.add ..) => "cache.add"
  | .cache (.remove ..) => "cache.remove"

/-- What a noted call was about; of a post that was added, its text. -/
def Noted.details : Noted → List String
  | .store (.create user data _) => [user, data]
  | .store (.read user id) => [user, id]
  | .store (.readAll user) => [user]
  | .store (.update user id data _) => [user, id, data]
  | .store (.delete user id) => [user, id]
  | .lookup user id _ => [user, id]
  | .cache (.get user id) => [user, id]
  | .cache (.add user id post) => [user, id, post.data]
  | .cache (.remove user id) => [user, id]

/-- The calls noted so far, latest first, and a failure that the next call of the store meets. -/
structure Journal where
  calls : List Noted := []
  planned : Option StoreError := none

/-- The journal with one more call. -/
def Journal.note (journal : Journal) (call : Noted) : Journal :=
  { journal with calls := call :: journal.calls }

/-- A store whose calls are noted. -/
def Store.noted {ω κ : Type} (store : Store ω κ) (journal : Part ω Journal) : Store ω κ where
  name := store.name
  serve call state :=
    let noted := (journal.get state).note (.store call)
    match noted.planned with
    | some error => (call.fail error, journal.set { noted with planned := none } state)
    | none => store.serve call (journal.set noted state)
  feed := store.feed

/-- What is noted of a call of a cache that gave an answer. -/
def Noted.ofCache : (call : CacheCall) → call.Answer → Noted
  | .get user id, answer => .lookup user id answer.isSome
  | call, _ => .cache call

/-- A cache whose calls are noted. -/
def Cache.noted {ω : Type} (cache : Cache ω) (journal : Part ω Journal) : Cache ω where
  name := cache.name
  serve call state :=
    let (answer, state) := cache.serve call state
    (answer, journal.set ((journal.get state).note (.ofCache call answer)) state)
  stats := cache.stats

/-! ## Caches over parts -/

/-- A cache over a part of a larger medium. -/
def Cache.within {ω τ : Type} (cache : Cache τ) (part : Part ω τ) : Cache ω where
  name := cache.name
  serve call := part.lift (cache.serve call)
  stats state := cache.stats (part.get state)

end PostStore
