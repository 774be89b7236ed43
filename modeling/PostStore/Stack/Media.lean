import PostStore.Cache.Absent
import PostStore.Cache.Lru
import PostStore.Files.Tree
import PostStore.Lmdb.Store
import PostStore.Postgres.Store
import PostStore.Redis.Cache
import PostStore.Store.Layer
import PostStore.Store.Memory
/-!
# All media together

One state that holds every medium a store or a cache can have, so that any store can stand behind
any cache, also behind one in the same server; and the cursors of all stores.
-/

namespace PostStore

/-- The states of all media, and of the layers around stores and caches. -/
structure Media where
  files : Files.Node := .directory []
  memory : Locked Memory := { inner := {} }
  file : Lmdb.Environment := .ofMegabytes 8
  server : Redis.Server := {}
  database : Postgres.Server := {}
  lru : Lru := { capacity := 1 }
  lookups : Redis.LookupCounts := {}
  unanswered : Nat := 0
  counts : CallCounts := {}
  journal : Journal := {}

namespace Media

/-! ## Parts -/

/-- The store in memory with its lock. -/
def memoryPart : Part Media (Locked Memory) := ⟨(·.memory), fun s w => { w with memory := s }⟩

/-- The document file. -/
def filePart : Part Media Lmdb.Environment := ⟨(·.file), fun s w => { w with file := s }⟩

/-- The key-value server. -/
def serverPart : Part Media Redis.Server := ⟨(·.server), fun s w => { w with server := s }⟩

/-- The database. -/
def databasePart : Part Media Postgres.Server := ⟨(·.database), fun s w => { w with database := s }⟩

/-- The cache in memory. -/
def lruPart : Part Media Lru := ⟨(·.lru), fun s w => { w with lru := s }⟩

/-- The key-value server with the counts of the cache in it. -/
def serverCachePart : Part Media (Redis.Server × Redis.LookupCounts) :=
  ⟨fun w => (w.server, w.lookups), fun s w => { w with server := s.1, lookups := s.2 }⟩

/-- The calls of the cache that is out of reach. -/
def unansweredPart : Part Media Nat := ⟨(·.unanswered), fun s w => { w with unanswered := s }⟩

/-- The counts of calls that reach the store. -/
def countsPart : Part Media CallCounts := ⟨(·.counts), fun s w => { w with counts := s }⟩

/-- The journal of calls. -/
def journalPart : Part Media Journal := ⟨(·.journal), fun s w => { w with journal := s }⟩

end Media

/-! ## Cursors -/

/-- A place in a listing of any store. -/
inductive Place where
  | snapshot (cursor : Snapshot)
  | pages (cursor : Lmdb.Pages)
  | scan (cursor : Redis.Scan)
  | rows (cursor : Postgres.Rows)

/-- The answer to a call with its cursor turned into another. -/
def Call.mapAnswer {κ κ' : Type} (inject : κ → κ') : (call : Call) → call.Answer κ → call.Answer κ'
  | .create .., answer => answer
  | .read .., answer => answer
  | .readAll _, answer => answer.map inject
  | .update .., answer => answer
  | .delete .., answer => answer

/-- A store whose cursors are turned into others. -/
def Store.mapCursor {ω κ κ' : Type} (store : Store ω κ) (inject : κ → κ') (feed : Feed ω κ') :
    Store ω κ' where
  name := store.name
  serve call state :=
    let (answer, state) := store.serve call state
    (call.mapAnswer inject answer, state)
  feed := feed

/-- Advances a feed and keeps the kind of its cursor. -/
def Feed.nextAs {ω κ κ' : Type} (feed : Feed ω κ) (inject : κ → κ') (cursor : κ) (state : ω) :
    Bool × κ' × ω :=
  let (more, cursor, state) := feed.next cursor state
  (more, inject cursor, state)

/-- Takes from a feed and keeps the kind of its cursor. -/
def Feed.getAs {ω κ κ' : Type} (feed : Feed ω κ) (inject : κ → κ') (cursor : κ) :
    Except StoreError Post × κ' :=
  let (element, cursor) := feed.get cursor
  (element, inject cursor)

namespace Stack

/-- The store in memory, behind its lock. -/
def memoryStore : Store Media Snapshot := Memory.store.locked.within Media.memoryPart

/-- The store in a file. -/
def fileStore (pageSize : Nat) : Store Media Lmdb.Pages :=
  (Lmdb.store pageSize).within Media.filePart

/-- The store in a key-value server. -/
def serverStore (setup : Redis.StoreSetup) : Store Media Redis.Scan :=
  (Redis.store setup).within Media.serverPart

/-- The store in a database. -/
def databaseStore (pageSize : Nat) : Store Media Postgres.Rows :=
  (Postgres.store pageSize).within Media.databasePart

/-- The feeds of all stores.  How they advance depends on the cursor alone. -/
def feed : Feed Media Place where
  next
    | .snapshot cursor => memoryStore.feed.nextAs .snapshot cursor
    | .pages cursor => (fileStore 1).feed.nextAs .pages cursor
    | .scan cursor => (serverStore { keyPrefix := "" }).feed.nextAs .scan cursor
    | .rows cursor => (databaseStore 1).feed.nextAs .rows cursor
  get
    | .snapshot cursor => memoryStore.feed.getAs .snapshot cursor
    | .pages cursor => (fileStore 1).feed.getAs .pages cursor
    | .scan cursor => (serverStore { keyPrefix := "" }).feed.getAs .scan cursor
    | .rows cursor => (databaseStore 1).feed.getAs .rows cursor
  close
    | .snapshot cursor => .snapshot cursor.close
    | .pages cursor => .pages cursor.close
    | .scan cursor => .scan cursor.close
    | .rows cursor => .rows cursor.close
  pending
    | .snapshot cursor => memoryStore.feed.pending cursor
    | .pages cursor => (fileStore 1).feed.pending cursor
    | .scan cursor => (serverStore { keyPrefix := "" }).feed.pending cursor
    | .rows cursor => (databaseStore 1).feed.pending cursor

end Stack

end PostStore
