import PostStore.Post.Basic
/-!
# Caches

A cache keeps copies of single posts and may forget them at any time.  Its calls never fail.
-/

namespace PostStore

/-- A call of a cache. -/
inductive CacheCall where
  | get (user id : String)
  | add (user id : String) (post : Post)
  | remove (user id : String)
  deriving DecidableEq

/-- The answer to a call of a cache. -/
abbrev CacheCall.Answer : CacheCall → Type
  | .get .. => Option Post
  | .add .. => Unit
  | .remove .. => Unit

/-- What a cache counts. -/
structure CacheStats where
  hits : Nat := 0
  misses : Nat := 0
  entries : Nat := 0
  evictions : Nat := 0
  deriving DecidableEq

/-- The largest number of lookups that can be told, a word of 64 bits. -/
def CacheStats.largestCount : Nat := 18446744073709551615

/-- The share of hits in all lookups, zero when there were no lookups; nothing when there were more
lookups than can be told. -/
def CacheStats.hitRate? (stats : CacheStats) : Option Float :=
  let total := stats.hits + stats.misses
  if largestCount < total then none
  else if total = 0 then some 0.0
  else some (stats.hits.toUInt64.toFloat / total.toUInt64.toFloat)

/-- Caches over media with states in `τ`. -/
structure Cache (τ : Type) where
  name : String
  serve : (call : CacheCall) → τ → call.Answer × τ
  stats : τ → CacheStats

end PostStore
