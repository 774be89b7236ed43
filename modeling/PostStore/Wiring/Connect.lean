import PostStore.Retry
import PostStore.Settings.Basic
import PostStore.Stack.Basic
import PostStore.Wiring.Site
/-!
# Connecting

From settings to a stack: the chosen store and the chosen cache are connected, with several attempts
where a server may still be coming up, and put together.
-/

namespace PostStore.Wiring

/-! ## Questions -/

/-- What connecting asks for. -/
inductive Ask where
  | openFile (path : String) (megabytes : Nat)
  | reach (url : String)
  | openPool (settings : DatabaseSettings)
  | database (question : Postgres.Ask)
  | pause (d : Duration)

/-- What it gets back. -/
abbrev Ask.Reply : Ask → Type
  | .openFile .. => Except StoreObstacle Unit
  | .reach _ => Except String Unit
  | .openPool _ => Except String Unit
  | .database question => question.Reply
  | .pause _ => Unit

/-- A dialogue with the site. -/
abbrev Talk (α : Type) := Dialogue Ask Ask.Reply α

/-- Tries an operation as a policy says. -/
def retried {ε α : Type} (policy : RetryPolicy) (attempt : Talk (Except ε α)) :
    Talk (Except ε α) :=
  policy.retry.expand fun question =>
    match question with
    | .attempt => attempt
    | .pause d => .ask (.pause d) .done

/-! ## Stores and caches -/

/-- The fault of a cache in memory without room. -/
def sizeFault (size : Nat) : SettingsError :=
  .invalid (Environment.variableName "CACHE_SIZE") (toString size) "must be a positive integer"

/-- Ends with a failure. -/
def fail {α : Type} (failure : Failure) : Except Obstacle α := .error (.failure failure)

/-- Makes the table of a database, unless it is there. -/
def tableMade : Talk (Except StoreError Unit) :=
  Dialogue.expand (fun question => .ask (.database question) .done) Postgres.ensureTable.run

/-- Connects the chosen store. -/
def connectStore (settings : StoreSettings) (policy : RetryPolicy) :
    Talk (Except Obstacle StoreChoice) :=
  let pageSize := settings.database.pageSize
  match settings.kind with
  | .memory => return .ok .memory
  | .postgres => do
    let opened : Except String Unit ← .ask (.openPool settings.database) .done
    match opened with
    | .error message =>
      return fail (.store (.backend Postgres.storeName ("Failed to create pool: " ++ message)))
    | .ok _ =>
      if Postgres.Server.largestPool < settings.database.poolSize then
        return .error (.excess .poolSize)
      else
        match ← retried policy tableMade with
        | .ok _ => return .ok (.database pageSize)
        | .error e => return fail (.store e)
  | .lmdb =>
    match settings.lmdb.path with
    | none => return fail (.settings .missingPath)
    | some path => do
      let opened : Except StoreObstacle Unit ←
        .ask (.openFile path settings.lmdb.maxMegabytes) .done
      match opened with
      | .ok _ => return .ok (.file pageSize)
      | .error obstacle => return .error obstacle.obstacle
  | .redis => do
    match ← retried policy (.ask (.reach settings.redis.url) .done) with
    | .ok _ => return .ok (.server { keyPrefix := settings.redis.keyPrefix ++ "posts:" })
    | .error message => return fail (.store (.backend Redis.storeName message))

/-- The setup of a cache in a key-value server. -/
def cacheSetup (settings : CacheSettings) : Redis.CacheSetup :=
  let setup := Redis.CacheSetup.withKeyPrefix {} (settings.redis.keyPrefix ++ "cache:")
  match settings.lifetimeSeconds with
  | some seconds => setup.withLifetime (.ofSeconds seconds)
  | none => setup

/-- Connects the chosen cache. -/
def connectCache (settings : CacheSettings) (policy : RetryPolicy) :
    Talk (Except Obstacle CacheChoice) :=
  match settings.kind with
  | .none => return .ok .absent
  | .memory =>
    if settings.size = 0 then return fail (.settings (sizeFault settings.size))
    else if Lru.largestCapacity < settings.size then return .error (.excess .cacheSize)
    else return .ok (.lru settings.size)
  | .redis => do
    match ← retried policy (.ask (.reach settings.redis.url) .done) with
    | .ok _ => return .ok (.server (cacheSetup settings))
    | .error message => return fail (.cache (.backend "redis" message))

/-- Connects the chosen store, then the chosen cache. -/
def build (settings : Settings) : Talk (Except Obstacle Stack) := do
  let policy := RetryPolicy.withMaxAttempts {} settings.connectRetries
  match ← connectStore settings.store policy with
  | .error obstacle => return .error obstacle
  | .ok store =>
    match ← connectCache settings.cache policy with
    | .error obstacle => return .error obstacle
    | .ok cache => return .ok { store := store, cache := some cache }

/-! ## Trying out -/

/-- How the parts of a service could be set up, and how the whole. -/
structure Trial where
  store : Except Obstacle StoreChoice
  cache : Except Obstacle CacheChoice
  poolFits : Bool
  stack : Except Obstacle Stack

/-- Whether something is asked to be too large. -/
def isTooLarge {α : Type} : Except Obstacle α → Bool
  | .error obstacle => obstacle.isExcess
  | .ok _ => false

/-- Whether any part is asked to be too large. -/
def Trial.isExcessive (trial : Trial) : Bool :=
  isTooLarge trial.store || isTooLarge trial.cache || !trial.poolFits || isTooLarge trial.stack

/-- Connects the store, the cache and then both together. -/
def tryOut (settings : Settings) (policy : RetryPolicy) : Talk Trial := do
  let store ← connectStore settings.store policy
  let cache ← connectCache settings.cache policy
  let poolFits := decide (settings.store.database.poolSize ≤ Postgres.Server.largestPool)
  let stack ← build settings
  return ⟨store, cache, poolFits, stack⟩

/-! ## Serving -/

/-- Serves what connecting asks for.  A new pool has no connection yet; time is not kept. -/
def serve : (question : Ask) → Media → question.Reply × Media
  | .openFile path megabytes, media =>
    match Site.openFile media.files path megabytes with
    | (.error obstacle, files) => (.error obstacle, { media with files := files })
    | (.ok file, files) => (.ok (), { media with files := files, file := file })
  | .reach url, media => (Site.reach media.files url, media)
  | .openPool settings, media =>
    match Site.poolProblem? settings with
    | some message => (.error message, media)
    | none =>
      (.ok (), { media with
        database := { media.database with
          connected := false
          barrier := Site.databaseBarrier? media.files settings } })
  | .database question, media => Media.databasePart.lift (Postgres.Server.serve question) media
  | .pause _, media => ((), media)

end PostStore.Wiring
