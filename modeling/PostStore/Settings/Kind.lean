import PostStore.Error
import PostStore.Text.Blank
/-!
# Kinds of stores and caches

The kinds that can be chosen, and the texts that choose them.
-/

namespace PostStore

/-- The kinds of stores. -/
inductive StoreKind where
  | memory
  | postgres
  | lmdb
  | redis
  deriving DecidableEq, Repr

/-- The kinds of caches. -/
inductive CacheKind where
  | none
  | memory
  | redis
  deriving DecidableEq, Repr

/-- A text without blanks at its ends and with small letters for the capitals `A` to `Z`. -/
def foldKind (text : String) : String :=
  String.ofList ((Text.trim text.toList).map Char.toLower)

/-- The kind of store that a text names. -/
def StoreKind.ofText (text : String) : Except SettingsError StoreKind :=
  let name := foldKind text
  if name = "memory" then .ok .memory
  else if name = "postgres" ∨ name = "postgresql" then .ok .postgres
  else if name = "lmdb" then .ok .lmdb
  else if name = "redis" then .ok .redis
  else .error (.unsupported text)

/-- The kind of cache that a text names. -/
def CacheKind.ofText (text : String) : Except SettingsError CacheKind :=
  let name := foldKind text
  if name = "none" ∨ name = "noop" then .ok .none
  else if name = "memory" ∨ name = "lru" then .ok .memory
  else if name = "redis" then .ok .redis
  else .error (.unsupported text)

/-- The name of a kind of store. -/
def StoreKind.name : StoreKind → String
  | .memory => "Memory"
  | .postgres => "Postgres"
  | .lmdb => "Lmdb"
  | .redis => "Redis"

/-- The name of a kind of cache. -/
def CacheKind.name : CacheKind → String
  | .none => "None"
  | .memory => "Memory"
  | .redis => "Redis"

end PostStore
