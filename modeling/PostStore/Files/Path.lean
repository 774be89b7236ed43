import PostStore.Text.Bytes
import PostStore.Text.Pieces
/-!
# Paths

A path is written as names between slashes.  Empty names mean nothing; the name `.` stands for the
directory itself and `..` for the one around it, but both only where there is such a directory, so
they are kept until the path is followed.
-/

namespace PostStore.Files

/-- The name of a file. -/
abbrev Name := Bytes

/-- The name that stands for the directory itself. -/
def here : Name := [46]

/-- The name that stands for the directory around. -/
def above : Name := [46, 46]

/-- The longest name, in bytes. -/
def longestName : Nat := 255

/-- The longest path, in bytes. -/
def longestPath : Nat := 4095

/-- A path: its names, and whether a slash at its end asks for a directory. -/
structure Path where
  names : List Name
  endsInSlash : Bool := false
  deriving DecidableEq

namespace Path

/-- The path that some bytes write; one that does not start with a slash starts at the root, too. -/
def ofBytes (bytes : Bytes) : Path where
  names := (splitAtMarks (· = 47) bytes).filter (· ≠ [])
  endsInSlash := bytes.getLast? = some 47

/-- The path that a text writes. -/
def ofString (text : String) : Path := ofBytes (Text.utf8 text)

/-- The path, then the paths of the directories around it up to the root, with `.` left out. -/
def lineage (path : Path) : List Path :=
  let names := path.names.filter (· ≠ here)
  path :: (List.range names.length).reverse.map fun count => ⟨names.take count, false⟩

end Path

end PostStore.Files
