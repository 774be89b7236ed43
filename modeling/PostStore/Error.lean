/-!
# What can go wrong

The failures of stores, of caches and of settings, and their wording.  Callers branch on a missing
post only; every other failure of a store is passed on as it is.  What keeps a service from being
set up is such a failure, or something that is asked to be too large.
-/

namespace PostStore

/-! ## Steps that may fail -/

section Bind

variable {ε α β : Type} {x : Except ε α} {f : α → Except ε β}

theorem bind_eq_ok {b : β} : (x >>= f) = .ok b ↔ ∃ a, x = .ok a ∧ f a = .ok b := by
  cases x <;> simp [bind, Except.bind]

theorem bind_eq_error {e : ε} :
    (x >>= f) = .error e ↔ x = .error e ∨ ∃ a, x = .ok a ∧ f a = .error e := by
  cases x <;> simp [bind, Except.bind]

end Bind

/-! ## Failures -/

/-- The failures of a store. -/
inductive StoreError where
  /-- There is no such post. -/
  | notFound (user id : String)
  /-- The medium failed. -/
  | backend (store reason : String)
  /-- What the medium holds is not a post. -/
  | decode (store reason : String)
  /-- A caller died while it held the store. -/
  | lockPoisoned
  /-- An element was asked for without an advance that found one. -/
  | misuse
  /-- No failure that is given to a caller: no instant follows the last change of the post, so the
  caller dies instead of changing it. -/
  | noLaterInstant
  deriving DecidableEq, Repr

/-- The wording of a failure of a store. -/
def StoreError.message : StoreError → String
  | .notFound user id => "Post '" ++ id ++ "' does not exist for user '" ++ user ++ "'"
  | .backend store reason => store ++ " backend failure: " ++ reason
  | .decode store reason => store ++ " decode failure: " ++ reason
  | .lockPoisoned => "Storage lock poisoned"
  | .misuse => "Record iterator read without a successful advance"
  | .noLaterInstant => "No later instant"

/-- Whether the failure is that of a missing post. -/
def StoreError.isNotFound : StoreError → Bool
  | .notFound _ _ => true
  | _ => false

/-- The failures of a cache. -/
inductive CacheError where
  | backend (cache reason : String)
  | serialization (reason : String)
  deriving DecidableEq, Repr

/-- The wording of a failure of a cache. -/
def CacheError.message : CacheError → String
  | .backend cache reason => cache ++ " cache failure: " ++ reason
  | .serialization reason => "Cache serialization error: " ++ reason

/-- The faults that settings can have. -/
inductive SettingsError where
  | missing (field : String)
  | invalid (field value reason : String)
  | unsupported (kind : String)
  deriving DecidableEq, Repr

/-- The wording of a fault of settings. -/
def SettingsError.message : SettingsError → String
  | .missing field => "Missing required configuration field: " ++ field
  | .invalid field value reason =>
    "Invalid value for " ++ field ++ ": " ++ value ++ " - " ++ reason
  | .unsupported kind => "Backend type '" ++ kind ++ "' is undefined"

/-- Any failure. -/
inductive Failure where
  | store (error : StoreError)
  | cache (error : CacheError)
  | settings (error : SettingsError)
  deriving DecidableEq, Repr

/-- The wording of a failure. -/
def Failure.message : Failure → String
  | .store error => "Storage error: " ++ error.message
  | .cache error => "Cache error: " ++ error.message
  | .settings error => "Config error: " ++ error.message

/-! ## Why nothing can be set up -/

/-- What is asked to be larger than any machine can make it. -/
inductive Excess where
  | cacheSize
  | poolSize
  | mapSize
  deriving DecidableEq, Repr

/-- Why a store, a cache or both together cannot be set up. -/
inductive Obstacle where
  | failure (error : Failure)
  | excess (what : Excess)
  deriving DecidableEq, Repr

/-- Why a store cannot be opened. -/
inductive StoreObstacle where
  | failure (error : StoreError)
  | excess (what : Excess)
  deriving DecidableEq, Repr

/-- Why a store cannot be opened, as a reason why nothing can be set up. -/
def StoreObstacle.obstacle : StoreObstacle → Obstacle
  | .failure error => .failure (.store error)
  | .excess what => .excess what

/-- What cannot be opened cannot be set up. -/
instance : MonadLift (Except StoreObstacle) (Except Obstacle) where
  monadLift result := result.mapError StoreObstacle.obstacle

/-- Whether the obstacle is that of something too large. -/
def Obstacle.isExcess : Obstacle → Bool
  | .excess _ => true
  | .failure _ => false

end PostStore
