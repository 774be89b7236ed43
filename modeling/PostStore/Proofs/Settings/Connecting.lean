import PostStore.Proofs.Listings
import PostStore.Wiring.Connect
/-!
# What is checked and what connecting needs

Two parts of the program look at the same settings.  The checks at loading time say what a store in
a file and a cache in memory must be given; connecting to the store and to the cache looks again,
each at its own.  The two agree in what they object to and in what they say about it, whatever the
files, the servers and the database answer.
-/

namespace PostStore

open Wiring

/-! ## The faults that connecting can meet -/

/-- What is wrong with the settings of a store. -/
def StoreSettings.fault? (settings : StoreSettings) : Option SettingsError :=
  if settings.kind = .lmdb ∧ settings.lmdb.path = none then some .missingPath else none

/-- What is wrong with the settings of a cache. -/
def CacheSettings.fault? (settings : CacheSettings) : Option SettingsError :=
  if settings.kind = .memory ∧ settings.size = 0 then some (.notPositive "CACHE_SIZE") else none

/-- The checks object to the store first, then to the cache, then to the number of posts fetched at
once, which connecting has no use for. -/
theorem Settings.validate_eq (settings : Settings) :
    settings.validate = match settings.store.fault?, settings.cache.fault? with
      | some fault, _ => .error fault
      | none, some fault => .error fault
      | none, none =>
        if settings.store.database.pageSize = 0 then .error (.notPositive "DB_PAGE_SIZE")
        else .ok () := by
  unfold validate StoreSettings.fault? CacheSettings.fault?
  split_ifs <;> rfl

theorem Settings.faults_of_validate_ok {settings : Settings} (passed : settings.validate = .ok ()) :
    settings.store.fault? = none ∧ settings.cache.fault? = none := by
  rw [validate_eq] at passed
  cases store : settings.store.fault? with
  | some fault => simp only [store, reduceCtorEq] at passed
  | none =>
    cases cache : settings.cache.fault? with
    | some fault => simp only [store, cache, reduceCtorEq] at passed
    | none => exact ⟨rfl, rfl⟩

theorem StoreSettings.fault?_eq_some {settings : StoreSettings} {fault : SettingsError}
    (faulty : settings.fault? = some fault) :
    settings.kind = .lmdb ∧ settings.lmdb.path = none ∧ fault = .missingPath := by
  unfold fault? at faulty
  split at faulty
  case isTrue bad => exact ⟨bad.1, bad.2, (Option.some.inj faulty).symm⟩
  case isFalse => exact nomatch faulty

theorem CacheSettings.fault?_eq_some {settings : CacheSettings} {fault : SettingsError}
    (faulty : settings.fault? = some fault) :
    settings.kind = .memory ∧ settings.size = 0 ∧ fault = .notPositive "CACHE_SIZE" := by
  unfold fault? at faulty
  split at faulty
  case isTrue bad => exact ⟨bad.1, bad.2, (Option.some.inj faulty).symm⟩
  case isFalse => exact nomatch faulty

theorem Settings.store_fault {settings : Settings}
    (failed : settings.validate = .error .missingPath) :
    settings.store.fault? = some .missingPath := by
  rw [validate_eq] at failed
  cases store : settings.store.fault? with
  | some fault =>
    simp only [store, Except.error.injEq] at failed
    rw [failed]
  | none =>
    cases cache : settings.cache.fault? with
    | some fault =>
      obtain rfl := (CacheSettings.fault?_eq_some cache).2.2
      simp [store, cache, SettingsError.missingPath, SettingsError.notPositive] at failed
    | none =>
      simp only [store, cache] at failed
      split at failed <;> simp [SettingsError.missingPath, SettingsError.notPositive] at failed

theorem Settings.cache_fault {settings : Settings}
    (failed : settings.validate = .error (.notPositive "CACHE_SIZE")) :
    settings.cache.fault? = some (.notPositive "CACHE_SIZE") := by
  rw [validate_eq] at failed
  cases store : settings.store.fault? with
  | some fault =>
    obtain rfl := (StoreSettings.fault?_eq_some store).2.2
    simp [store, SettingsError.missingPath, SettingsError.notPositive] at failed
  | none =>
    cases cache : settings.cache.fault? with
    | some fault =>
      simp only [store, cache, Except.error.injEq] at failed
      rw [failed]
    | none =>
      simp only [store, cache] at failed
      split at failed
      · simp [SettingsError.notPositive, Environment.variableName] at failed
      · exact nomatch failed

/-! ## Connecting -/

namespace Wiring

/-- What has become of connecting is no fault of the settings. -/
def Faultless {α : Type} (result : Except Obstacle α) : Prop :=
  ∀ fault, result ≠ fail (.settings fault)

theorem faultless_ok {α : Type} (value : α) : Faultless (.ok value) := nofun

theorem faultless_fail_store {α : Type} (e : StoreError) :
    Faultless (fail (.store e) : Except Obstacle α) := nofun

theorem faultless_fail_cache {α : Type} (e : CacheError) :
    Faultless (fail (.cache e) : Except Obstacle α) := nofun

theorem faultless_excess {α : Type} (what : Excess) :
    Faultless (.error (.excess what) : Except Obstacle α) := nofun

/-- What keeps a file from being opened is no fault of the settings. -/
theorem faultless_obstacle {α : Type} (obstacle : StoreObstacle) :
    Faultless (.error obstacle.obstacle : Except Obstacle α) := by
  cases obstacle <;> exact nofun

/-- A store whose settings are at fault is not connected to, and nothing is asked. -/
theorem connectStore_of_fault {settings : StoreSettings} {fault : SettingsError}
    (faulty : settings.fault? = some fault) (policy : RetryPolicy) :
    connectStore settings policy = .done (fail (.settings fault)) := by
  obtain ⟨kind, path, rfl⟩ := StoreSettings.fault?_eq_some faulty
  unfold connectStore
  simp only [kind, path]
  rfl

/-- Otherwise no answers make the settings of the store a reason to fail. -/
theorem connectStore_faultless {settings : StoreSettings} (sound : settings.fault? = none)
    (policy : RetryPolicy) : (connectStore settings policy).Ends Faultless := by
  unfold connectStore
  cases kind : settings.kind with
  | memory => exact faultless_ok _
  | postgres =>
    intro opened
    cases opened with
    | error message => exact faultless_fail_store _
    | ok _ =>
      by_cases tooLarge : Postgres.Server.largestPool < settings.database.poolSize
      · simp only [tooLarge, if_true]
        exact faultless_excess _
      · simp only [tooLarge, if_false]
        refine (Dialogue.ends_bind (retried policy tableMade) _).2
          (Dialogue.Ends.of_forall (fun made => ?_) _)
        cases made with
        | ok _ => exact faultless_ok _
        | error e => exact faultless_fail_store _
  | lmdb =>
    cases path : settings.lmdb.path with
    | none =>
      rw [StoreSettings.fault?, if_pos ⟨kind, path⟩] at sound
      exact nomatch sound
    | some path =>
      intro opened
      cases opened with
      | ok _ => exact faultless_ok _
      | error obstacle => exact faultless_obstacle _
  | redis =>
    refine (Dialogue.ends_bind _ _).2 (Dialogue.Ends.of_forall (fun reached => ?_) _)
    cases reached with
    | ok _ => exact faultless_ok _
    | error message => exact faultless_fail_store _

/-- A cache whose settings are at fault is not connected to, and nothing is asked. -/
theorem connectCache_of_fault {settings : CacheSettings} {fault : SettingsError}
    (faulty : settings.fault? = some fault) (policy : RetryPolicy) :
    connectCache settings policy = .done (fail (.settings fault)) := by
  obtain ⟨kind, size, rfl⟩ := CacheSettings.fault?_eq_some faulty
  unfold connectCache
  simp only [kind, size]
  rfl

/-- Otherwise no answers make the settings of the cache a reason to fail. -/
theorem connectCache_faultless {settings : CacheSettings} (sound : settings.fault? = none)
    (policy : RetryPolicy) : (connectCache settings policy).Ends Faultless := by
  unfold connectCache
  cases kind : settings.kind with
  | none => exact faultless_ok _
  | memory =>
    by_cases empty : settings.size = 0
    · rw [CacheSettings.fault?, if_pos ⟨kind, empty⟩] at sound
      exact nomatch sound
    · simp only [empty, if_false]
      split
      · exact faultless_excess _
      · exact faultless_ok _
  | redis =>
    refine (Dialogue.ends_bind _ _).2 (Dialogue.Ends.of_forall (fun reached => ?_) _)
    cases reached with
    | ok _ => exact faultless_ok _
    | error message => exact faultless_fail_cache _

/-! ## Connecting both -/

/-- A store whose settings are at fault keeps both from being connected, for the same reason. -/
theorem build_of_store_fault {settings : Settings} {fault : SettingsError}
    (faulty : settings.store.fault? = some fault) :
    build settings = .done (fail (.settings fault)) := by
  unfold build
  simp only [connectStore_of_fault faulty]
  rfl

/-- A cache whose settings are at fault keeps both from being connected, if only after the store. -/
theorem build_of_cache_fault {settings : Settings} {fault : SettingsError}
    (faulty : settings.cache.fault? = some fault) :
    (build settings).Ends fun result => ∀ stack, result ≠ .ok stack := by
  unfold build
  simp only [connectCache_of_fault faulty]
  refine (Dialogue.ends_bind _ _).2 (Dialogue.Ends.of_forall (fun connected => ?_) _)
  cases connected <;> exact nofun

theorem build_faultless {settings : Settings} (store : settings.store.fault? = none)
    (cache : settings.cache.fault? = none) : (build settings).Ends Faultless := by
  refine (Dialogue.ends_bind (connectStore settings.store _) _).2
    ((connectStore_faultless store _).imp fun connected faultless => ?_)
  cases connected with
  | error obstacle => exact fun fault same => faultless fault (congrArg _ (Except.error.inj same))
  | ok choice =>
    refine (Dialogue.ends_bind (connectCache settings.cache _) _).2
      ((connectCache_faultless cache _).imp fun connected faultless => ?_)
    cases connected with
    | error obstacle => exact fun fault same => faultless fault (congrArg _ (Except.error.inj same))
    | ok choice => exact faultless_ok _

/-- **Settings that pass the checks can be connected with, and others cannot, for the reason that
the checks gave.**  This holds at any site: of settings that pass, whatever the files, the servers
and the database answer, neither store nor cache nor both together fail for a fault of the settings.
Of settings without a path for the file, the store fails with just what the checks say; of settings
without room for the cache in memory, the cache does; either before anything is asked.  Both
together then fail as well, without a path before anything is asked. -/
theorem connecting_as_checked (settings : Settings) (policy : RetryPolicy) {ω : Type}
    (site : (question : Ask) → ω → question.Reply × ω) (w : ω) :
    (settings.validate = .ok () → ∀ fault,
      ((connectStore settings.store policy).run site w).1 ≠ fail (.settings fault) ∧
      ((connectCache settings.cache policy).run site w).1 ≠ fail (.settings fault) ∧
      ((build settings).run site w).1 ≠ fail (.settings fault)) ∧
    (settings.validate = .error .missingPath →
      (connectStore settings.store policy).run site w = (fail (.settings .missingPath), w) ∧
      (build settings).run site w = (fail (.settings .missingPath), w)) ∧
    (settings.validate = .error (.notPositive "CACHE_SIZE") →
      (connectCache settings.cache policy).run site w =
        (fail (.settings (.notPositive "CACHE_SIZE")), w) ∧
      ∀ stack, ((build settings).run site w).1 ≠ .ok stack) := by
  refine ⟨fun passed fault => ?_, fun failed => ?_, fun failed => ?_⟩
  · obtain ⟨store, cache⟩ := Settings.faults_of_validate_ok passed
    exact ⟨(connectStore_faultless store policy).run site w fault,
      (connectCache_faultless cache policy).run site w fault,
      (build_faultless store cache).run site w fault⟩
  · have fault := Settings.store_fault failed
    rw [connectStore_of_fault fault, build_of_store_fault fault]
    exact ⟨rfl, rfl⟩
  · have fault := Settings.cache_fault failed
    rw [connectCache_of_fault fault]
    exact ⟨rfl, (build_of_cache_fault fault).run site w⟩

/-- Where there are no files yet: a file with a path is made, a file without one is refused, and so
is a cache without room. -/
theorem connecting_as_checked_nowhere :
    let good : Settings := { store := { kind := .lmdb, lmdb := { path := some "/posts" } } }
    let noPath : Settings := { store := { kind := .lmdb } }
    let noRoom : Settings := { cache := { size := 0 } }
    (good.validate = .ok () ∧
      ∀ fault, ((build good).run serve {}).1 ≠ fail (.settings fault)) ∧
    (noPath.validate = .error .missingPath ∧
      (connectStore noPath.store {}).run serve {} = (fail (.settings .missingPath), {})) ∧
    (noRoom.validate = .error (.notPositive "CACHE_SIZE") ∧
      ∀ stack, ((build noRoom).run serve {}).1 ≠ .ok stack) := by
  intro good noPath noRoom
  have passed : good.validate = .ok () := rfl
  have unset : noPath.validate = .error .missingPath := rfl
  have empty : noRoom.validate = .error (.notPositive "CACHE_SIZE") := rfl
  exact ⟨⟨passed, fun fault => ((connecting_as_checked good {} serve {}).1 passed fault).2.2⟩,
    ⟨unset, ((connecting_as_checked noPath {} serve {}).2.1 unset).1⟩,
    ⟨empty, ((connecting_as_checked noRoom {} serve {}).2.2 empty).2⟩⟩

end Wiring

end PostStore
