import PostStore.Text.Bytes
/-!
# The document file

An ordered map from keys to values, both bytes.  It is changed in transactions: changes go to a
draft that takes the place of the entries when it is committed, and is forgotten when it is not.
The file has a limited capacity, and while its only reader slot is held no other reader can begin.
-/

namespace PostStore.Lmdb

/-- Keys with their values, in ascending order of keys. -/
abbrev Entries := List (Bytes × Bytes)

/-- Files a value under a key. -/
def Entries.insert (key value : Bytes) : Entries → Entries
  | [] => [(key, value)]
  | (k, v) :: rest =>
    if key < k then (key, value) :: (k, v) :: rest
    else if k = key then (key, value) :: rest
    else (k, v) :: Entries.insert key value rest

/-- The value under a key. -/
def Entries.get? (key : Bytes) : Entries → Option Bytes
  | [] => none
  | (k, v) :: rest => if k = key then some v else Entries.get? key rest

/-- Drops the entry under a key. -/
def Entries.erase (key : Bytes) (entries : Entries) : Entries :=
  entries.filter fun entry => entry.1 ≠ key

/-- Whether a key is behind a lower bound, or is the bound where that counts. -/
def within (lower : Bytes) (inclusive : Bool) (key : Bytes) : Bool :=
  lower < key || (inclusive && key = lower)

/-- The first entry whose key is within a bound. -/
def Entries.seek (lower : Bytes) (inclusive : Bool) (entries : Entries) : Option (Bytes × Bytes) :=
  entries.find? fun entry => within lower inclusive entry.1

/-- The bytes that the entries take. -/
def Entries.size (entries : Entries) : Nat :=
  entries.foldr (fun entry size => entry.1.length + entry.2.length + size) 0

/-- Why the file refuses. -/
inductive Failure where
  | mapFull
  | badReaderSlot
  | other (message : String)
  deriving DecidableEq, Repr

/-- The wording of a refusal. -/
def Failure.message : Failure → String
  | .mapFull => "MDB_MAP_FULL: Environment mapsize limit reached"
  | .badReaderSlot => "MDB_BAD_RSLOT: Invalid reuse of reader locktable slot"
  | .other message => message

/-- What can be asked of the file. -/
inductive Ask where
  | beginRead
  | beginWrite
  | get (key : Bytes)
  | put (key value : Bytes)
  | erase (key : Bytes)
  | openRange
  | seek (lower : Bytes) (inclusive : Bool)
  | commit
  deriving DecidableEq

/-- What is given when the file does not refuse. -/
abbrev Ask.Result : Ask → Type
  | .get _ => Option Bytes
  | .seek .. => Option (Bytes × Bytes)
  | _ => Unit

/-- The reply to a question. -/
abbrev Ask.Reply (question : Ask) : Type := Except Failure question.Result

/-- The state of the file. -/
structure Environment where
  capacity : Nat
  entries : Entries := []
  draft : Option Entries := none
  readerHeld : Bool := false

namespace Environment

/-- The bytes in a megabyte. -/
def megabyte : Nat := 1048576

/-- The number of sizes that a word of 64 bits can tell. -/
def sizeBound : Nat := Nat.pow 2 64

/-- The size from which on no map fits between what is in the address space anyway: the program
stands at two thirds of the 47 bits of it. -/
def widestGap : Nat := Nat.pow 2 48 / 3

/-- The size of the map of a file for so many megabytes. -/
def mapSize (megabytes : Nat) : Nat := megabytes * megabyte

/-- An empty file for so many megabytes; one megabyte when the map would have no size. -/
def ofMegabytes (megabytes : Nat) : Environment :=
  { capacity := if megabytes = 0 then megabyte else mapSize megabytes }

/-- The entries as the running transaction sees them. -/
def working (env : Environment) : Entries := env.draft.getD env.entries

/-- Forgets the draft. -/
def abandon (env : Environment) : Environment := { env with draft := none }

/-- Serves questions. -/
def serve : (question : Ask) → Environment → question.Reply × Environment
  | .beginRead, env =>
    if env.readerHeld then (.error .badReaderSlot, env) else (.ok (), env.abandon)
  | .beginWrite, env => (.ok (), { env with draft := some env.entries })
  | .get key, env => (.ok (env.working.get? key), env)
  | .put key value, env =>
    if env.capacity < env.working.size + value.length then (.error .mapFull, env)
    else (.ok (), { env with draft := some (env.working.insert key value) })
  | .erase key, env => (.ok (), { env with draft := some (env.working.erase key) })
  | .openRange, env => (.ok (), env)
  | .seek lower inclusive, env => (.ok (env.working.seek lower inclusive), env)
  | .commit, env => (.ok (), { env with entries := env.working, draft := none })

end Environment

end PostStore.Lmdb
