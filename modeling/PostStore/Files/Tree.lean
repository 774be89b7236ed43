import PostStore.Bindings
import PostStore.Files.Error
import PostStore.Files.Path
/-!
# The tree of files

What is in the file system, and what happens when a path is followed from the root, when
directories are made along it, and when a socket at its end is called.
-/

namespace PostStore.Files

/-! ## Nodes -/

/-- A file of some kind, with everything below it. -/
inductive Node where
  | directory (entries : List (Name × Node))
  | file
  /-- A file of the document store. -/
  | documents
  | socket

namespace Node

/-- Whether the node is a directory. -/
def isDirectory : Node → Bool
  | .directory _ => true
  | _ => false

/-- What a directory holds, and nothing for anything else. -/
def entries : Node → Bindings Name Node
  | .directory entries => entries
  | _ => []

/-- What a directory holds under a name. -/
def child? (name : Name) (node : Node) : Option Node := node.entries.get? name

/-- Puts something at the end of some names, with directories on the way. -/
def put (node : Node) : List Name → Node → Node
  | [], new => new
  | name :: rest, new =>
    let below := ((node.child? name).getD (.directory [])).put rest new
    .directory (node.entries.put name below)

end Node

/-! ## Following paths -/

/-- Where a path has led: the nodes passed with their names, the last first. -/
structure Trail where
  root : Node
  steps : List (Name × Node) := []

namespace Trail

/-- The node reached. -/
def node (trail : Trail) : Node :=
  match trail.steps with
  | [] => trail.root
  | (_, node) :: _ => node

/-- The names that lead to the node from the root. -/
def names (trail : Trail) : List Name := (trail.steps.map (·.1)).reverse

/-- Follows names. -/
def follow (trail : Trail) : List Name → Except SystemError Trail
  | [] => .ok trail
  | name :: rest =>
    if !trail.node.isDirectory then .error .notDirectory
    else if name = here then trail.follow rest
    else if name = above then follow ⟨trail.root, trail.steps.tail⟩ rest
    else if longestName < name.length then .error .nameTooLong
    else
      match trail.node.child? name with
      | none => .error .missing
      | some node => follow ⟨trail.root, (name, node) :: trail.steps⟩ rest

end Trail

namespace Node

/-- Where a path leads from the root. -/
def find (root : Node) (path : Path) : Except SystemError Trail :=
  match Trail.follow ⟨root, []⟩ path.names with
  | .error e => .error e
  | .ok trail =>
    if path.endsInSlash && !trail.node.isDirectory then .error .notDirectory else .ok trail

/-- Whether a path leads to a directory. -/
def leadsToDirectory (root : Node) (path : Path) : Bool :=
  match root.find path with
  | .error _ => false
  | .ok trail => trail.node.isDirectory

/-! ## Making directories -/

/-- Makes the directory at the end of a path in a directory that is there. -/
def makeDirectory (root : Node) (path : Path) : Except SystemError Node :=
  match path.names.getLast? with
  | none => .error .occupied
  | some name =>
    match Trail.follow ⟨root, []⟩ path.names.dropLast with
    | .error e => .error e
    | .ok trail =>
      if !trail.node.isDirectory then .error .notDirectory
      else if name = here ∨ name = above then .error .occupied
      else if longestName < name.length then .error .nameTooLong
      else if (trail.node.child? name).isSome then .error .occupied
      else .ok (root.put (trail.names ++ [name]) (.directory []))

/-- Goes up a line of paths, the innermost first, until a directory is there or can be made; the
paths passed over are returned, the outermost first. -/
def climb (root : Node) (passed : List Path) : List Path → Except SystemError (Node × List Path)
  | [] => .ok (root, passed)
  | path :: rest =>
    match root.makeDirectory path with
    | .ok root => .ok (root, passed)
    | .error e =>
      if e = .missing then root.climb (path :: passed) rest
      else if e = .occupied ∧ root.leadsToDirectory path then .ok (root, passed)
      else .error e

/-- Makes directories one after the other, unless they are there. -/
def descend (root : Node) : List Path → Except SystemError Unit × Node
  | [] => (.ok (), root)
  | path :: rest =>
    match root.makeDirectory path with
    | .ok root => root.descend rest
    | .error e =>
      if e = .occupied ∧ root.leadsToDirectory path then root.descend rest else (.error e, root)

/-- Makes the directory at the end of a path and all directories around it, unless they are there,
and tells where the path leads then. -/
def makeDirectories (root : Node) (path : Bytes) : Except SystemError Trail × Node :=
  if longestPath < path.length then (.error .nameTooLong, root)
  else
    let path := Path.ofBytes path
    match root.climb [] path.lineage with
    | .error e => (.error e, root)
    | .ok (root, passed) =>
      match root.descend passed with
      | (.error e, root) => (.error e, root)
      | (.ok _, root) => (root.find path, root)

/-! ## Sockets -/

/-- Calls the socket at the end of a path. -/
def call (root : Node) (path : Bytes) : Except SystemError Unit :=
  match root.find (.ofBytes path) with
  | .error e => .error e
  | .ok trail =>
    match trail.node with
    | .socket => .ok ()
    | _ => .error .refused

end Node

end PostStore.Files
