import PostStore.Cache.Basic
/-!
# Caches that hold nothing

One that is not there, and one that is out of reach and counts how often it was asked.
-/

namespace PostStore

/-- What a cache that holds nothing answers. -/
def CacheCall.miss : (call : CacheCall) → call.Answer
  | .get .. => none
  | .add .. => ()
  | .remove .. => ()

/-- No cache at all. -/
def Cache.absent {τ : Type} : Cache τ where
  name := "none"
  serve call state := (call.miss, state)
  stats _ := {}

/-- A cache that is out of reach; its state is the number of calls. -/
def Cache.unreachable : Cache Nat where
  name := "unreachable"
  serve call calls := (call.miss, calls + 1)
  stats calls := { misses := calls }

end PostStore
