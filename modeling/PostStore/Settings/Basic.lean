import PostStore.Settings.Environment
import PostStore.Settings.Kind
/-!
# Settings

All that a service is set up with: the store with what each kind of store needs, the cache, and how
often to try to reach a server.  Settings are loaded from the environment, variable by variable, and
then checked as a whole.
-/

namespace PostStore

/-! ## Sections -/

/-- How to reach a database, and how to use it. -/
structure DatabaseSettings where
  host : String := "localhost"
  port : Nat := 5432
  database : String := "crudstore"
  user : String := "postgres"
  password : String := ""
  poolSize : Nat := 16
  timeoutSeconds : Nat := 30
  pageSize : Nat := 100
  deriving DecidableEq

/-- Where the document file is, and how large it may grow.  Settings that are loaded name a path by
a text; settings made by hand could name one by bytes that are no text, and these are left out. -/
structure LmdbSettings where
  path : Option String := none
  maxMegabytes : Nat := 1024
  deriving DecidableEq

/-- How to reach a key-value server, and what its keys start with. -/
structure RedisSettings where
  url : String := "redis://127.0.0.1:6379"
  keyPrefix : String := "crudstore:"
  deriving DecidableEq

/-- The store. -/
structure StoreSettings where
  kind : StoreKind := .memory
  database : DatabaseSettings := {}
  lmdb : LmdbSettings := {}
  redis : RedisSettings := {}
  deriving DecidableEq

/-- The cache.  Settings that are loaded hold whole seconds; settings made by hand could hold a
lifetime with a part of a second, and these are left out. -/
structure CacheSettings where
  kind : CacheKind := .memory
  size : Nat := 10000
  lifetimeSeconds : Option Nat := none
  redis : RedisSettings := {}
  deriving DecidableEq

/-- All settings. -/
structure Settings where
  serviceName : String := "crudstore"
  environment : String := "development"
  store : StoreSettings := {}
  cache : CacheSettings := {}
  connectRetries : Nat := 5
  deriving DecidableEq

/-! ## Checking -/

/-- The fault of a store kept in a file without a path. -/
def SettingsError.missingPath : SettingsError := .missing (Environment.variableName "LMDB_PATH")

/-- The fault of a number that must not be zero. -/
def SettingsError.notPositive (name : String) : SettingsError :=
  .invalid (Environment.variableName name) "0" "must be a positive integer"

/-- Checks what no single variable can show. -/
def Settings.validate (settings : Settings) : Except SettingsError Unit :=
  if settings.store.kind = .lmdb ∧ settings.store.lmdb.path = none then .error .missingPath
  else if settings.cache.kind = .memory ∧ settings.cache.size = 0 then
    .error (.notPositive "CACHE_SIZE")
  else if settings.store.database.pageSize = 0 then .error (.notPositive "DB_PAGE_SIZE")
  else .ok ()

/-! ## Loading -/

/-- The largest number of 16 bits. -/
def Settings.largest16 : Nat := 65535

/-- The largest number of 32 bits. -/
def Settings.largest32 : Nat := 4294967295

/-- The largest number of 64 bits. -/
def Settings.largest64 : Nat := 18446744073709551615

namespace Environment

/-- The settings of a key-value server. -/
def redisSettings (env : Environment) : RedisSettings :=
  let default : RedisSettings := {}
  ⟨env.textOr "REDIS_URL" default.url, env.textOr "REDIS_KEY_PREFIX" default.keyPrefix⟩

/-- The settings of a database. -/
def databaseSettings (env : Environment) : Except SettingsError DatabaseSettings := do
  let default : DatabaseSettings := {}
  let port ← env.numberOr "DB_PORT" Settings.largest16 default.port
  let poolSize ← env.numberOr "DB_POOL_SIZE" Settings.largest64 default.poolSize
  let timeoutSeconds ← env.numberOr "DB_TIMEOUT" Settings.largest64 default.timeoutSeconds
  let pageSize ← env.numberOr "DB_PAGE_SIZE" Settings.largest64 default.pageSize
  return {
    host := env.textOr "DB_HOST" default.host
    port := port
    database := env.textOr "DB_NAME" default.database
    user := env.textOr "DB_USER" default.user
    password := env.textOr "DB_PASSWORD" default.password
    poolSize := poolSize
    timeoutSeconds := timeoutSeconds
    pageSize := pageSize }

/-- The settings of the store. -/
def storeSettings (env : Environment) : Except SettingsError StoreSettings := do
  let default : LmdbSettings := {}
  let kind ← env.kindOr "STORAGE_TYPE" StoreKind.ofText .memory
  let database ← env.databaseSettings
  let maxMegabytes ← env.numberOr "LMDB_MAX_SIZE_MB" Settings.largest64 default.maxMegabytes
  return ⟨kind, database, ⟨env.text? "LMDB_PATH", maxMegabytes⟩, env.redisSettings⟩

/-- The settings of the cache; a lifetime of zero means for ever. -/
def cacheSettings (env : Environment) : Except SettingsError CacheSettings := do
  let default : CacheSettings := {}
  let lifetime ← env.numberOr "CACHE_TTL_SECS" Settings.largest64 0
  let kind ← env.kindOr "CACHE_TYPE" CacheKind.ofText default.kind
  let size ← env.numberOr "CACHE_SIZE" Settings.largest64 default.size
  return ⟨kind, size, if lifetime = 0 then none else some lifetime, env.redisSettings⟩

/-- The settings that an environment describes. -/
def settings (env : Environment) : Except SettingsError Settings := do
  let default : Settings := {}
  let store ← env.storeSettings
  let cache ← env.cacheSettings
  let connectRetries ← env.numberOr "CONNECT_RETRIES" Settings.largest32 default.connectRetries
  let settings : Settings := {
    serviceName := env.textOr "SERVICE_NAME" default.serviceName
    environment := env.textOr "ENVIRONMENT" default.environment
    store := store
    cache := cache
    connectRetries := connectRetries }
  settings.validate
  return settings

end Environment

end PostStore
