import PostStore.Coordinator
import PostStore.Stack.Media
/-!
# Stacks

A choice of store and of cache, and the store that they make together.
-/

namespace PostStore

/-- A choice of store. -/
inductive StoreChoice where
  | memory
  | failing
  | file (pageSize : Nat)
  | server (setup : Redis.StoreSetup)
  | database (pageSize : Nat)

/-- A choice of cache. -/
inductive CacheChoice where
  | absent
  | unreachable
  | lru (capacity : Nat)
  | server (setup : Redis.CacheSetup)

/-- The chosen store. -/
def StoreChoice.store : StoreChoice → Store Media Place
  | .memory => Stack.memoryStore.mapCursor .snapshot Stack.feed
  | .failing => Store.failing Stack.feed
  | .file pageSize => (Stack.fileStore pageSize).mapCursor .pages Stack.feed
  | .server setup => (Stack.serverStore setup).mapCursor .scan Stack.feed
  | .database pageSize => (Stack.databaseStore pageSize).mapCursor .rows Stack.feed

/-- The chosen cache. -/
def CacheChoice.cache : CacheChoice → Cache Media
  | .absent => Cache.absent
  | .unreachable => Cache.unreachable.within Media.unansweredPart
  | .lru _ => Lru.cache.within Media.lruPart
  | .server setup => (Redis.cache setup).within Media.serverCachePart

/-- How the chosen store shows itself, if it does. -/
def StoreChoice.text? : StoreChoice → Option String
  | .server setup => some setup.text
  | .database pageSize => some (Postgres.shown (max 1 pageSize))
  | _ => none

/-- How the chosen cache shows itself, if it does. -/
def CacheChoice.text? : CacheChoice → Option String
  | .server setup => some (setup.text ++ " " ++ setup.keyPrefix)
  | _ => none

/-- A store, perhaps with a cache in front of it. -/
structure Stack where
  store : StoreChoice
  cache : Option CacheChoice

namespace Stack

/-- Sets up the media that a stack needs from the start: an empty cache in memory of the chosen
capacity, unless that is too large. -/
def install (stack : Stack) (media : Media) : Except Obstacle Media :=
  match stack.cache with
  | some (.lru capacity) =>
    if Lru.largestCapacity < capacity then .error (.excess .cacheSize)
    else .ok { media with lru := { capacity := capacity } }
  | _ => .ok media

/-- How the store behind the cache shows itself, if there is a cache. -/
def coordinatorText? (stack : Stack) : Option String :=
  stack.cache.map fun cache =>
    "CachingStorage \x7b storage: " ++ Text.quote stack.store.store.name ++ ", cache: " ++
      Text.quote cache.cache.name ++ " \x7d"

/-- How the service over the stack shows itself. -/
def serviceText (stack : Stack) : String :=
  "PostService \x7b storage: " ++ Text.quote stack.store.store.name ++ " \x7d"

/-- How the store, the cache and the coordinator between them show themselves, the coordinator with
the names of the two. -/
def partTexts (stack : Stack) : List String :=
  let coordinator := stack.cache.bind fun cache =>
    stack.coordinatorText?.map fun text =>
      text ++ " " ++ stack.store.store.name ++ " " ++ cache.cache.name
  [stack.store.text?, stack.cache.bind CacheChoice.text?, coordinator].filterMap id

/-- The store that clients get. -/
def front (stack : Stack) : Store Media Place :=
  match stack.cache with
  | none => stack.store.store
  | some cache => stack.store.store.behind cache.cache

/-- The store with counted and noted calls. -/
def watchedBack (stack : Stack) : Store Media Place :=
  (stack.store.store.counted Media.countsPart).noted Media.journalPart

/-- The cache with noted calls. -/
def watchedCache (cache : CacheChoice) : Cache Media := cache.cache.noted Media.journalPart

/-- The store that clients get when all calls are watched. -/
def watchedFront (stack : Stack) : Store Media Place :=
  match stack.cache with
  | none => stack.watchedBack
  | some cache => stack.watchedBack.behind (watchedCache cache)

end Stack

end PostStore
