import PostStore.Files.Tree
import PostStore.Lmdb.Store
import PostStore.Redis.Server
import PostStore.Settings.Basic
/-!
# The site

Where the service runs: which files are there, and which servers can be reached from there.  Sockets
are in the file system; there is no network, and no names of hosts are known but that of the machine
itself.
-/

namespace PostStore.Site

open Files

/-! ## The document file -/

/-- The failure of a document store that is not opened. -/
def notOpened (reason : String) : StoreObstacle := .failure (.backend Lmdb.storeName reason)

/-- The name of the file with the locks. -/
def lockName : Name := Text.utf8 "lock.mdb"

/-- The name of the file with the documents. -/
def dataName : Name := Text.utf8 "data.mdb"

/-- What keeps the two files in a directory from being opened, and how it is called. -/
def filesProblem? (trail : Trail) : Option String :=
  let length := (trail.names.flatMap (47 :: ·)).length + 1 + lockName.length
  let blocked (node : Option Node) : Option SystemError :=
    match node with
    | some (.directory _) => some .isDirectory
    | some .socket => some .noDevice
    | _ => none
  if longestPath < length then some SystemError.nameTooLong.message
  else
    match blocked (trail.node.child? lockName), blocked (trail.node.child? dataName),
      trail.node.child? dataName with
    | some e, _, _ => some e.message
    | none, some e, _ => some e.message
    | none, none, some .file => some "MDB_INVALID: File is not an LMDB file"
    | none, none, _ => none

/-- A document file for so many megabytes in a directory of which a problem is known. -/
def makeFile (megabytes : Nat) (problem? : Option String) :
    Except StoreObstacle Lmdb.Environment :=
  let size := Lmdb.Environment.mapSize megabytes
  let refuse (message : String) := notOpened ("Failed to open LMDB environment: " ++ message)
  if Lmdb.Environment.sizeBound ≤ size then .error (.excess .mapSize)
  else
    match problem? with
    | some message => .error (refuse message)
    | none =>
      if Lmdb.Environment.widestGap ≤ size then .error (refuse SystemError.noMemory.message)
      else .ok (.ofMegabytes megabytes)

/-- Makes a document file in a directory, which is made when it is not there.  How the file is made
depends on what is wrong with the directory. -/
def openIn (make : (problem? : Option String) → Except StoreObstacle Lmdb.Environment) (root : Node)
    (path : String) : Except StoreObstacle Lmdb.Environment × Node :=
  let bytes := Text.utf8 path
  if bytes.contains 0 then
    (.error (notOpened "I/O error: file name contained an unexpected NUL byte"), root)
  else
    match root.makeDirectories bytes with
    | (.error e, root) => (.error (notOpened ("I/O error: " ++ e.message)), root)
    | (.ok trail, root) =>
      match make (filesProblem? trail) with
      | .error obstacle => (.error obstacle, root)
      | .ok file =>
        let root := root.put (trail.names ++ [lockName]) .documents
        (.ok file, root.put (trail.names ++ [dataName]) .documents)

/-- Opens the document file for so many megabytes in a directory. -/
def openFile (root : Node) (path : String) (megabytes : Nat) :
    Except StoreObstacle Lmdb.Environment × Node :=
  openIn (makeFile megabytes) root path

/-! ## Servers -/

/-- The length from which on the path of a socket is too long. -/
def socketPathBound : Nat := 108

/-- Calls the socket at the end of a path. -/
def callSocket (root : Node) (path : Bytes) : Except String Unit :=
  if path.contains 0 then .error "paths must not contain interior null bytes"
  else if socketPathBound ≤ path.length then .error "path must be shorter than SUN_LEN"
  else (root.call path).mapError SystemError.message

/-- What is said when a host is called. -/
def callHost : Host → String
  | .address groups =>
    if Host.isMulticast groups || Host.isMapped groups then SystemError.unreachable.message
    else if Host.isLinkLocal groups then SystemError.invalid.message
    else SystemError.addressNotAvailable.message
  | .name text =>
    let notFound (reason : String) := "failed to lookup address information: " ++ reason
    let name := text.toList
    if Host.isOwn name || Host.isOctets name then SystemError.unreachable.message
    else if Host.isName name then notFound "Temporary failure in name resolution"
    else notFound "Name or service not known"

/-- Reaches the key-value server that a URL denotes, and enters it. -/
def reach (root : Node) (url : String) : Except String Unit :=
  match Redis.Access.ofUrl url with
  | .error e => .error e.message
  | .ok access =>
    match access.address with
    | .host host _ => .error (callHost host)
    | .socket path =>
      match callSocket root path with
      | .error message => .error message
      | .ok _ => access.enter

/-- What is wrong with the settings of a pool, if anything is, before any connection is made. -/
def poolProblem? (settings : DatabaseSettings) : Option String :=
  if settings.database = "" then
    some "Config: configuration property \"dbname\" contains an empty string"
  else none

/-- What keeps connections from the database of some settings, if anything does. -/
def databaseBarrier? (root : Node) (settings : DatabaseSettings) : Option String :=
  let socket := settings.host ++ "/.s.PGSQL." ++ toString settings.port
  let hasNul (text : String) : Bool := text.toList.contains '\x00'
  if !settings.host.startsWith "/" || !(callSocket root (Text.utf8 socket)).isOk then
    some "error connecting to server"
  else if hasNul settings.user || hasNul settings.database then
    some "error encoding message to server"
  else none

end PostStore.Site
