import PostStore.Proofs.Settings.Readings
/-!
# What settings are loaded from

Each variable of the environment with the reading of its text, its default, and the one place among
the settings that it fills.  Loading fills just these places, each from its own variable, and checks
what comes of it; where it fails, the fault lies with a variable that is set wrongly.
-/

namespace PostStore

/-! ## Variables -/

/-- A variable: its name, how it is read, its default, and where it goes. -/
structure Variable (σ : Type) where
  {α : Type}
  name : String
  reading : Reading α
  default : α
  view : σ → α

namespace Variable

variable {σ ρ : Type}

/-- The settings have what the variable gives. -/
def Holds (v : Variable σ) (env : Environment) (s : σ) : Prop :=
  v.reading.Loads env v.name v.default (v.view s)

/-- The variable is unset, or empty, or has a meaning. -/
def WellSet (v : Variable σ) (env : Environment) : Prop :=
  ∀ raw, env.Sets v.name raw → ∃ a, v.reading.Means raw a

/-- The fault is one of a text of the variable without a meaning. -/
def Misread (v : Variable σ) (env : Environment) (error : SettingsError) : Prop :=
  v.reading.Misread env v.name error

/-- The same variable for settings of which its own are a part. -/
def within (v : Variable σ) (part : ρ → σ) : Variable ρ :=
  ⟨v.name, v.reading, v.default, fun s => v.view (part s)⟩

end Variable

open Reading

/-- The variables of a key-value server. -/
def RedisSettings.variables : List (Variable RedisSettings) :=
  [⟨"REDIS_URL", text, "redis://127.0.0.1:6379", (·.url)⟩,
    ⟨"REDIS_KEY_PREFIX", text, "crudstore:", (·.keyPrefix)⟩]

/-- The variables of a database. -/
def DatabaseSettings.variables : List (Variable DatabaseSettings) :=
  [⟨"DB_HOST", text, "localhost", (·.host)⟩,
    ⟨"DB_PORT", number Settings.largest16, 5432, (·.port)⟩,
    ⟨"DB_NAME", text, "crudstore", (·.database)⟩,
    ⟨"DB_USER", text, "postgres", (·.user)⟩,
    ⟨"DB_PASSWORD", text, "", (·.password)⟩,
    ⟨"DB_POOL_SIZE", number Settings.largest64, 16, (·.poolSize)⟩,
    ⟨"DB_TIMEOUT", number Settings.largest64, 30, (·.timeoutSeconds)⟩,
    ⟨"DB_PAGE_SIZE", number Settings.largest64, 100, (·.pageSize)⟩]

/-- The variables of a document file. -/
def LmdbSettings.variables : List (Variable LmdbSettings) :=
  [⟨"LMDB_PATH", text.map some, none, (·.path)⟩,
    ⟨"LMDB_MAX_SIZE_MB", number Settings.largest64, 1024, (·.maxMegabytes)⟩]

/-- The variables of the store. -/
def StoreSettings.variables : List (Variable StoreSettings) :=
  ⟨"STORAGE_TYPE", storeKind, .memory, (·.kind)⟩ ::
    (DatabaseSettings.variables.map (·.within (·.database)) ++
      LmdbSettings.variables.map (·.within (·.lmdb)) ++
        RedisSettings.variables.map (·.within (·.redis)))

/-- A lifetime of so many seconds, or for ever. -/
def CacheSettings.lifetime (seconds : Nat) : Option Nat :=
  if seconds = 0 then none else some seconds

/-- The variables of the cache. -/
def CacheSettings.variables : List (Variable CacheSettings) :=
  [⟨"CACHE_TYPE", cacheKind, .memory, (·.kind)⟩,
    ⟨"CACHE_SIZE", number Settings.largest64, 10000, (·.size)⟩,
    ⟨"CACHE_TTL_SECS", (number Settings.largest64).map CacheSettings.lifetime, none,
      (·.lifetimeSeconds)⟩] ++
      RedisSettings.variables.map (·.within (·.redis))

/-- All variables.  Those of a key-value server fill two places each. -/
def Settings.variables : List (Variable Settings) :=
  [⟨"SERVICE_NAME", text, "crudstore", (·.serviceName)⟩,
    ⟨"ENVIRONMENT", text, "development", (·.environment)⟩,
    ⟨"CONNECT_RETRIES", number Settings.largest32, 5, (·.connectRetries)⟩] ++
      StoreSettings.variables.map (·.within (·.store)) ++
        CacheSettings.variables.map (·.within (·.cache))

/-! ## What variables say -/

section Said

variable {σ ρ : Type}

/-- The settings have what all of the variables give. -/
def Describes (env : Environment) (listed : List (Variable σ)) (s : σ) : Prop :=
  ∀ v ∈ listed, v.Holds env s

/-- The fault is one of a text of some of the variables. -/
def Faulty (env : Environment) (listed : List (Variable σ)) (error : SettingsError) : Prop :=
  ∃ v ∈ listed, v.Misread env error

variable {env : Environment} (v : Variable σ) (listed rest : List (Variable σ)) {s : σ}
  {error : SettingsError}

@[simp]
theorem describes_nil : Describes env [] s ↔ True := iff_true_intro (List.forall_mem_nil _)

@[simp]
theorem describes_cons : Describes env (v :: listed) s ↔
    v.reading.Loads env v.name v.default (v.view s) ∧ Describes env listed s :=
  List.forall_mem_cons

@[simp]
theorem describes_append : Describes env (listed ++ rest) s ↔
    Describes env listed s ∧ Describes env rest s := List.forall_mem_append

@[simp]
theorem describes_within (part : ρ → σ) (s : ρ) :
    Describes env (listed.map (·.within part)) s ↔ Describes env listed (part s) :=
  List.forall_mem_map

@[simp]
theorem faulty_nil : ¬ Faulty env ([] : List (Variable σ)) error :=
  fun ⟨_, no, _⟩ => List.not_mem_nil no

@[simp]
theorem faulty_cons : Faulty env (v :: listed) error ↔
    v.reading.Misread env v.name error ∨ Faulty env listed error := by
  simp only [Faulty, List.mem_cons, or_and_right, exists_or, exists_eq_left]
  rfl

@[simp]
theorem faulty_append : Faulty env (listed ++ rest) error ↔
    Faulty env listed error ∨ Faulty env rest error := by
  simp only [Faulty, List.mem_append, or_and_right, exists_or]

@[simp]
theorem faulty_within (part : ρ → σ) :
    Faulty env (listed.map (·.within part)) error ↔ Faulty env listed error := by
  constructor
  · rintro ⟨_, member, misread⟩
    obtain ⟨v, listed, rfl⟩ := List.mem_map.1 member
    exact ⟨v, listed, misread⟩
  · rintro ⟨v, listed, misread⟩
    exact ⟨_, List.mem_map_of_mem listed, misread⟩

end Said

/-! ## Loading in sections -/

/-- A program loads all of the variables: it gives what they say, or a fault of one of them. -/
structure Loaded {σ : Type} (env : Environment) (listed : List (Variable σ))
    (program : Except SettingsError σ) : Prop where
  ok : ∀ s, program = .ok s ↔ Describes env listed s
  error : ∀ e, program = .error e → Faulty env listed e

variable {env : Environment}

theorem describes_redis (s : RedisSettings) :
    Describes env RedisSettings.variables s ↔ s = env.redisSettings := by
  simp only [RedisSettings.variables, describes_cons, describes_nil, loads_text, and_true]
  constructor
  · obtain ⟨url, keyPrefix⟩ := s
    rintro ⟨rfl, rfl⟩
    rfl
  · rintro rfl
    exact ⟨rfl, rfl⟩

theorem loaded_database : Loaded env DatabaseSettings.variables env.databaseSettings where
  ok s := by
    simp only [DatabaseSettings.variables, describes_cons, describes_nil, and_true, loads_text,
      Environment.databaseSettings, bind_eq_ok, numberOr_eq_kindOr,
      (parses_number _ _).kindOr_eq_ok]
    constructor
    · rintro ⟨port, port_loads, pool, pool_loads, timeout, timeout_loads, page, page_loads, out⟩
      obtain rfl := Except.ok.inj out
      exact ⟨rfl, port_loads, rfl, rfl, rfl, pool_loads, timeout_loads, page_loads⟩
    · rintro ⟨host, port, database, user, password, pool, timeout, page⟩
      refine ⟨_, port, _, pool, _, timeout, _, page, ?_⟩
      rw [← host, ← database, ← user, ← password]
      rfl
  error e failed := by
    simp only [Environment.databaseSettings, bind_eq_error, numberOr_eq_kindOr] at failed
    rcases failed with bad | ⟨_, _, bad | ⟨_, _, bad | ⟨_, _, bad | ⟨_, _, no⟩⟩⟩⟩
    rotate_right
    · exact nomatch no
    -- whichever of the numbers it is, it is one of those listed
    all_goals
      have misread := (parses_number _ _).kindOr_eq_error bad
      simp [DatabaseSettings.variables, misread]

theorem loaded_store : Loaded env StoreSettings.variables env.storeSettings where
  ok s := by
    simp only [StoreSettings.variables, LmdbSettings.variables, describes_cons, describes_append,
      describes_within, describes_nil, and_true, describes_redis, loads_optional,
      ← loaded_database.ok, Environment.storeSettings, bind_eq_ok, numberOr_eq_kindOr,
      (parses_number _ _).kindOr_eq_ok, (parses_storeKind _).kindOr_eq_ok]
    constructor
    · rintro ⟨kind, kind_loads, database, database_loads, room, room_loads, out⟩
      obtain rfl := Except.ok.inj out
      exact ⟨kind_loads, ⟨database_loads, rfl, room_loads⟩, rfl⟩
    · obtain ⟨kind, database, ⟨path, room⟩, redis⟩ := s
      rintro ⟨kind_loads, ⟨database_loads, rfl, room_loads⟩, rfl⟩
      exact ⟨kind, kind_loads, database, database_loads, room, room_loads, rfl⟩
  error e failed := by
    simp only [Environment.storeSettings, bind_eq_error, numberOr_eq_kindOr] at failed
    simp only [StoreSettings.variables, faulty_cons, faulty_append, faulty_within]
    rcases failed with bad | ⟨_, _, bad | ⟨_, _, bad | ⟨_, _, no⟩⟩⟩
    · exact .inl ((parses_storeKind _).kindOr_eq_error bad)
    · exact .inr (.inl (.inl (loaded_database.error e bad)))
    · have misread := (parses_number _ _).kindOr_eq_error bad
      simp [LmdbSettings.variables, misread]
    · exact nomatch no

theorem loads_lifetime (bound : Nat) (name : String) (b : Option Nat) :
    ((number bound).map CacheSettings.lifetime).Loads env name none b ↔
      ∃ seconds, (number bound).Loads env name 0 seconds ∧ CacheSettings.lifetime seconds = b :=
  loads_map CacheSettings.lifetime 0 b

theorem loaded_cache : Loaded env CacheSettings.variables env.cacheSettings where
  ok s := by
    simp only [CacheSettings.variables, describes_cons, describes_append, describes_within,
      describes_nil, and_true, describes_redis, loads_lifetime, Environment.cacheSettings,
      bind_eq_ok, numberOr_eq_kindOr, (parses_number _ _).kindOr_eq_ok,
      (parses_cacheKind _).kindOr_eq_ok]
    constructor
    · rintro ⟨seconds, seconds_loads, kind, kind_loads, size, size_loads, out⟩
      obtain rfl := Except.ok.inj out
      exact ⟨⟨kind_loads, size_loads, seconds, seconds_loads, rfl⟩, rfl⟩
    · obtain ⟨kind, size, _, redis⟩ := s
      rintro ⟨⟨kind_loads, size_loads, seconds, seconds_loads, rfl⟩, rfl⟩
      exact ⟨seconds, seconds_loads, kind, kind_loads, size, size_loads, rfl⟩
  error e failed := by
    simp only [Environment.cacheSettings, bind_eq_error, numberOr_eq_kindOr] at failed
    rcases failed with bad | ⟨_, _, bad | ⟨_, _, bad | ⟨_, _, no⟩⟩⟩
    · have misread := (parses_number _ _).kindOr_eq_error bad
      rw [← misread_map CacheSettings.lifetime] at misread
      simp [CacheSettings.variables, misread]
    · have misread := (parses_cacheKind _).kindOr_eq_error bad
      simp [CacheSettings.variables, misread]
    · have misread := (parses_number _ _).kindOr_eq_error bad
      simp [CacheSettings.variables, misread]
    · exact nomatch no

/-- The settings that an environment describes, not checked yet. -/
def Environment.unchecked (env : Environment) : Except SettingsError Settings := do
  let default : Settings := {}
  let store ← env.storeSettings
  let cache ← env.cacheSettings
  let connectRetries ← env.numberOr "CONNECT_RETRIES" Settings.largest32 default.connectRetries
  return {
    serviceName := env.textOr "SERVICE_NAME" default.serviceName
    environment := env.textOr "ENVIRONMENT" default.environment
    store := store
    cache := cache
    connectRetries := connectRetries }

theorem settings_eq (env : Environment) :
    env.settings = env.unchecked >>= fun s => s.validate >>= fun _ => .ok s := by
  unfold Environment.settings Environment.unchecked
  simp only [bind_assoc, pure_bind]
  rfl

theorem loaded_settings : Loaded env Settings.variables env.unchecked where
  ok s := by
    simp only [Settings.variables, describes_cons, describes_append, describes_within,
      describes_nil, and_true, loads_text, ← loaded_store.ok, ← loaded_cache.ok,
      Environment.unchecked, bind_eq_ok, numberOr_eq_kindOr, (parses_number _ _).kindOr_eq_ok]
    constructor
    · rintro ⟨store, store_loads, cache, cache_loads, retries, retries_loads, out⟩
      obtain rfl := Except.ok.inj out
      exact ⟨⟨⟨rfl, rfl, retries_loads⟩, store_loads⟩, cache_loads⟩
    · obtain ⟨service, environment, store, cache, retries⟩ := s
      rintro ⟨⟨⟨rfl, rfl, retries_loads⟩, store_loads⟩, cache_loads⟩
      exact ⟨store, store_loads, cache, cache_loads, retries, retries_loads, rfl⟩
  error e failed := by
    simp only [Environment.unchecked, bind_eq_error, numberOr_eq_kindOr] at failed
    simp only [Settings.variables, faulty_append, faulty_within]
    rcases failed with bad | ⟨_, _, bad | ⟨_, _, bad | ⟨_, _, no⟩⟩⟩
    · exact .inl (.inr (loaded_store.error e bad))
    · exact .inr (loaded_cache.error e bad)
    · have misread := (parses_number _ _).kindOr_eq_error bad
      simp [misread]
    · exact nomatch no

/-! ## Defaults -/

/-- Every default is the one that settings have by themselves. -/
theorem view_default : ∀ v ∈ Settings.variables, v.view {} = v.default := by
  simp [Settings.variables, StoreSettings.variables, CacheSettings.variables,
    DatabaseSettings.variables, LmdbSettings.variables, RedisSettings.variables, Variable.within]

/-- Where no variable is set there are the default settings, and they pass the checks. -/
theorem settings_of_unset (unset : ∀ name raw, ¬ env.Sets name raw) : env.settings = .ok {} := by
  have defaults : Describes env Settings.variables {} := fun v listed =>
    ⟨fun raw set => (unset _ raw set).elim, fun _ => view_default v listed⟩
  rw [settings_eq, (loaded_settings.ok {}).2 defaults]
  rfl

/-! ## Faults -/

/-- The faults that can be found with an environment, and what in it each is found with. -/
inductive AtFault (env : Environment) : SettingsError → Prop where
  /-- A variable is set to a text that means nothing. -/
  | misread {error : SettingsError} (faulty : Faulty env Settings.variables error) :
    AtFault env error
  /-- The store is to be kept in a file, and no variable says where. -/
  | noPath {kind : String} (chosen : env.Sets "STORAGE_TYPE" kind)
    (file : storeKind.Means kind .lmdb) (unset : ∀ path, ¬ env.Sets "LMDB_PATH" path) :
    AtFault env (.missing (Environment.variableName "LMDB_PATH"))
  /-- The cache is to be kept in memory, and to be of size zero. -/
  | noRoom {size : String} (set : env.Sets "CACHE_SIZE" size)
    (zero : (number Settings.largest64).Means size 0)
    (memory : ∀ kind, env.Sets "CACHE_TYPE" kind → cacheKind.Means kind .memory) :
    AtFault env
      (.invalid (Environment.variableName "CACHE_SIZE") "0" "must be a positive integer")
  /-- Pages are to have no posts. -/
  | noPosts {size : String} (set : env.Sets "DB_PAGE_SIZE" size)
    (zero : (number Settings.largest64).Means size 0) :
    AtFault env
      (.invalid (Environment.variableName "DB_PAGE_SIZE") "0" "must be a positive integer")

/-- What is not a default has been set. -/
theorem Reading.Loads.exists_set {α : Type} {r : Reading α} {name : String} {default a : α}
    (loads : r.Loads env name default a) (other : a ≠ default) :
    ∃ raw, env.Sets name raw ∧ r.Means raw a := by
  cases here : env.text? name with
  | none => exact absurd ((loads_of_none here).1 loads) other
  | some raw => exact ⟨raw, Environment.text?_eq_some.1 here, (loads_of_some here).1 loads⟩

/-- A fault that the checks find with settings is one of the environment that describes them. -/
theorem atFault_of_validate {s : Settings} {e : SettingsError}
    (described : Describes env Settings.variables s) (failed : s.validate = .error e) :
    AtFault env e := by
  simp only [Settings.variables, StoreSettings.variables, CacheSettings.variables,
    DatabaseSettings.variables, LmdbSettings.variables, describes_cons, describes_append,
    describes_within, describes_nil, and_true] at described
  obtain ⟨⟨-, ⟨kind, ⟨⟨-, -, -, -, -, -, -, page⟩, path, -⟩, -⟩⟩, ⟨cache, size, -⟩, -⟩ := described
  unfold Settings.validate at failed
  -- what each check objects to is no default, so it must have been set
  split at failed
  case isTrue fault =>
    obtain rfl := Except.error.inj failed
    rw [fault.1] at kind
    obtain ⟨raw, chosen, file⟩ := kind.exists_set (by decide)
    refine .noPath chosen file fun path' set => ?_
    obtain ⟨_, -, some⟩ := path.set path' set
    exact Option.some_ne_none _ (some.trans fault.2)
  split at failed
  case isTrue fault =>
    obtain rfl := Except.error.inj failed
    rw [fault.2] at size
    obtain ⟨raw, set, zero⟩ := size.exists_set (by decide)
    exact .noRoom set zero fun kind' set' => fault.1 ▸ cache.set kind' set'
  split at failed
  case isTrue fault =>
    obtain rfl := Except.error.inj failed
    rw [fault] at page
    obtain ⟨raw, set, zero⟩ := page.exists_set (by decide)
    exact .noPosts set zero
  · exact nomatch failed

/-! ## Loading as a whole -/

theorem settings_eq_ok {s : Settings} :
    env.settings = .ok s ↔ Describes env Settings.variables s ∧ s.validate = .ok () := by
  rw [settings_eq, bind_eq_ok, ← loaded_settings.ok]
  constructor
  · rintro ⟨t, loaded, checked⟩
    obtain ⟨_, passed, same⟩ := bind_eq_ok.1 checked
    obtain rfl := Except.ok.inj same
    exact ⟨loaded, passed⟩
  · exact fun ⟨loaded, passed⟩ => ⟨s, loaded, bind_eq_ok.2 ⟨(), passed, rfl⟩⟩

/-- Loading fails with a text that means nothing, or where the checks fail. -/
theorem settings_eq_error {e : SettingsError} (failed : env.settings = .error e) :
    Faulty env Settings.variables e ∨
      ∃ s, Describes env Settings.variables s ∧ s.validate = .error e := by
  rw [settings_eq, bind_eq_error] at failed
  rcases failed with bad | ⟨s, loaded, failed⟩
  · exact .inl (loaded_settings.error e bad)
  · rcases bind_eq_error.1 failed with failed | ⟨_, _, no⟩
    · exact .inr ⟨s, (loaded_settings.ok s).1 loaded, failed⟩
    · exact nomatch no

/-- An environment describes no two settings. -/
theorem Describes.unique {s t : Settings} (first : Describes env Settings.variables s)
    (second : Describes env Settings.variables t) : s = t :=
  Except.ok.inj (((loaded_settings.ok s).2 first).symm.trans ((loaded_settings.ok t).2 second))

/-- A variable gives the same wherever it has the same value. -/
theorem Variable.Holds.congr {σ : Type} {v : Variable σ} {other : Environment} {s t : σ}
    (first : v.Holds env s) (second : v.Holds other t)
    (same : env (Environment.variableName v.name) = other (Environment.variableName v.name)) :
    v.view s = v.view t := by
  have text : env.text? v.name = other.text? v.name := by
    unfold Environment.text?
    rw [same]
  unfold Holds at first second
  cases here : env.text? v.name with
  | none =>
    rw [(loads_of_none here).1 first, (loads_of_none (text ▸ here)).1 second]
  | some raw =>
    exact v.reading.unique ((loads_of_some here).1 first)
      ((loads_of_some (text ▸ here)).1 second)

/-- **Settings are what the environment says.**  They are loaded just as the variables give them,
each place from its own variable and independent of every other, and only if they pass the checks.
They are loaded at all just if every variable that is set has a meaning and the settings that come
of it pass; otherwise the fault that is told is one that the environment has. -/
theorem settings_as_described (env : Environment) :
    (∀ s, env.settings = .ok s ↔ Describes env Settings.variables s ∧ s.validate = .ok ()) ∧
    ((∃ s, env.settings = .ok s) ↔ (∀ v ∈ Settings.variables, v.WellSet env) ∧
      ∀ s, Describes env Settings.variables s → s.validate = .ok ()) ∧
    (∀ (other : Environment) s t, env.settings = .ok s → other.settings = .ok t →
      ∀ v ∈ Settings.variables,
        env (Environment.variableName v.name) = other (Environment.variableName v.name) →
          v.view s = v.view t) ∧
    ∀ e, env.settings = .error e → AtFault env e := by
  refine ⟨fun s => settings_eq_ok, ⟨?_, ?_⟩, ?_, ?_⟩
  · rintro ⟨s, loaded⟩
    obtain ⟨described, passed⟩ := settings_eq_ok.1 loaded
    refine ⟨fun v listed raw set => ⟨v.view s, (described v listed).set raw set⟩, ?_⟩
    exact fun t other => described.unique other ▸ passed
  · -- loading that fails leaves a variable without a meaning, or settings that do not pass
    rintro ⟨wellSet, passes⟩
    cases here : env.settings with
    | ok s => exact ⟨s, rfl⟩
    | error e =>
      rcases settings_eq_error here with ⟨v, listed, raw, set, nothing, -⟩ | ⟨s, described, failed⟩
      · obtain ⟨a, means⟩ := wellSet v listed raw set
        exact absurd means (nothing a)
      · exact nomatch (passes s described).symm.trans failed
  · intro other s t first second v listed same
    exact ((settings_eq_ok.1 first).1 v listed).congr ((settings_eq_ok.1 second).1 v listed) same
  · intro e failed
    rcases settings_eq_error failed with faulty | ⟨s, described, failed⟩
    · exact .misread faulty
    · exact atFault_of_validate described failed

/-- A kind in mixed case between blanks, a port with a plus sign and a variable set to nothing are
well set; the port is the same without the kind; a port beyond 16 bits is at fault. -/
theorem settings_as_described_ports :
    let env : Environment := fun
      | "CRUDSTORE_STORAGE_TYPE" => some " Redis "
      | "CRUDSTORE_DB_PORT" => some "+06543\n"
      | "CRUDSTORE_CACHE_TTL_SECS" => some ""
      | _ => none
    let other : Environment := fun
      | "CRUDSTORE_DB_PORT" => some "+06543\n"
      | _ => none
    let large : Environment := fun
      | "CRUDSTORE_DB_PORT" => some " 70000"
      | _ => none
    let s : Settings := { store := { kind := .redis, database := { port := 6543 } } }
    let t : Settings := { store := { database := { port := 6543 } } }
    (Describes env Settings.variables s ∧ s.validate = .ok ()) ∧
      (∀ v ∈ Settings.variables, v.WellSet env) ∧
      (other.settings = .ok t ∧
        ∀ v ∈ Settings.variables, v.name = "DB_PORT" → v.view s = v.view t) ∧
      AtFault large (.invalid "CRUDSTORE_DB_PORT" " 70000"
        "number too large to fit in target type") := by
  intro env other large s t
  obtain ⟨exact, exists_iff, independent, -⟩ := settings_as_described env
  have loaded : env.settings = .ok s := rfl
  refine ⟨(exact s).1 loaded, (exists_iff.1 ⟨s, loaded⟩).1, ⟨rfl, fun v listed named => ?_⟩, ?_⟩
  · refine independent other s t loaded rfl v listed ?_
    rw [named]
    rfl
  · exact (settings_as_described large).2.2.2 _ rfl

end PostStore
