import PostStore.Bindings
import PostStore.Cache.Basic
/-!
# The cache in memory

At most a given number of entries, kept in the order of last use.  Adding to a full cache drops the
entry whose last use is longest ago.
-/

namespace PostStore

/-- Entries by cache key, the last used first, and what happened so far.  The counters have 64 bits;
here they count on, so they are exact as long as there were fewer than `2 ^ 64` calls. -/
structure Lru where
  capacity : Nat
  entries : Bindings String Post := []
  hits : Nat := 0
  misses : Nat := 0
  evictions : Nat := 0

namespace Lru

/-- The largest capacity.  The table of entries is filled to at most seven eighths of a power of
two, and with the next larger power of two it would not fit an address. -/
def largestCapacity : Nat := 7 * Nat.pow 2 55

/-- Looks up an entry, which counts as its last use. -/
def get (lru : Lru) (key : String) : Option Post × Lru :=
  match lru.entries.get? key with
  | some post =>
    (some post, { lru with entries := (key, post) :: lru.entries.erase key, hits := lru.hits + 1 })
  | none => (none, { lru with misses := lru.misses + 1 })

/-- Adds or replaces an entry, which counts as its last use. -/
def add (lru : Lru) (key : String) (post : Post) : Lru :=
  let others := lru.entries.erase key
  if (lru.entries.get? key).isNone ∧ lru.capacity ≤ others.length then
    { lru with entries := (key, post) :: others.dropLast, evictions := lru.evictions + 1 }
  else { lru with entries := (key, post) :: others }

/-- Removes an entry. -/
def remove (lru : Lru) (key : String) : Lru := { lru with entries := lru.entries.erase key }

/-- Serves calls. -/
def serve : (call : CacheCall) → Lru → call.Answer × Lru
  | .get user id, lru => lru.get (Post.cacheKey user id)
  | .add user id post, lru => ((), lru.add (Post.cacheKey user id) post)
  | .remove user id, lru => ((), lru.remove (Post.cacheKey user id))

/-- What has been counted. -/
def stats (lru : Lru) : CacheStats := ⟨lru.hits, lru.misses, lru.entries.length, lru.evictions⟩

/-- The cache in memory. -/
def cache : Cache Lru := ⟨"memory", serve, stats⟩

/-- How the cache shows itself. -/
def text (lru : Lru) : String :=
  "LruCache \x7b len: " ++ toString lru.entries.length ++ ", capacity: " ++ toString lru.capacity ++
    " \x7d"

end Lru

end PostStore
