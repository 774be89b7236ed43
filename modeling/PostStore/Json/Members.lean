import PostStore.Json.Scalar
import PostStore.Json.Skip
/-!
# Structures and lists

A structure is given by its members, each with a name, a reader and a writer.  It is written as an
object with the members in order.  It is read from an object that has every member once, in any
order, among members of other names, which are passed over; or from a list of the members in order.
-/

namespace PostStore.Json

/-! ## Members -/

/-- A member of a structure. -/
structure Member where
  name : String
  Value : Type
  read : Reader Value
  write : Value → Bytes

/-- A member that is a text. -/
def Member.text (name : String) : Member := ⟨name, String, readText, writeText⟩

/-- A member that is an instant. -/
def Member.instant (name : String) : Member := ⟨name, Instant, readInstant, writeInstant⟩

/-- A value for each of some members. -/
abbrev Values : List Member → Type
  | [] => Unit
  | m :: ms => m.Value × Values ms

/-- For each of some members the value, once it has been read. -/
abbrev Slots : List Member → Type
  | [] => Unit
  | m :: ms => Option m.Value × Slots ms

/-- No value has been read. -/
def Slots.empty : (members : List Member) → Slots members
  | [] => ()
  | _ :: ms => (none, Slots.empty ms)

/-- The values, or the name of the first member that has none. -/
def Slots.values : (members : List Member) → Slots members → Except String (Values members)
  | [], _ => .ok ()
  | m :: ms, (slot, slots) =>
    match slot with
    | none => .error m.name
    | some value =>
      match Slots.values ms slots with
      | .ok values => .ok (value, values)
      | .error name => .error name

/-! ## Reading objects -/

/-- Where a structure that was written as an object ends, if nothing more follows in it. -/
def afterObject (bytes : Bytes) : Bytes :=
  match skipSpace bytes with
  | [] => []
  | b :: rest => if b = 125 then rest else b :: rest

/-- Reads what follows the name of a member. -/
def readMember (name : String) : (members : List Member) → Slots members → Bytes →
    Except Fault (Slots members × Bytes)
  | [], _, bytes =>
    match skipColon bytes with
    | .error fault => .error fault
    | .ok rest =>
      match skipValue rest with
      | .error fault => .error fault
      | .ok rest => .ok ((), rest)
  | m :: ms, (slot, slots), bytes =>
    if m.name = name then
      match slot with
      | some _ => .error (faultAt (.duplicateField name) (afterObject bytes))
      | none =>
        match skipColon bytes with
        | .error fault => .error fault
        | .ok rest =>
          match m.read rest with
          | .error fault => .error fault
          | .ok (value, rest) => .ok ((some value, slots), rest)
    else
      match readMember name ms slots bytes with
      | .error fault => .error fault
      | .ok (slots, rest) => .ok ((slot, slots), rest)

/-- Goes to the opening quote of the next name, or to the closing bracket. -/
def nextName (first : Bool) (bytes : Bytes) : Except Fault Bytes :=
  match skipSpace bytes with
  | [] => .error (faultAfter .endInObject [])
  | b :: rest =>
    if b = 125 then .ok (b :: rest)
    else if first then
      if b = 34 then .ok (b :: rest) else .error (faultAfter .keyNotString (b :: rest))
    else if b = 44 then
      match skipSpace rest with
      | [] => .error (faultAfter .endInValue [])
      | b :: rest =>
        if b = 34 then .ok (b :: rest)
        else if b = 125 then .error (faultAfter .trailingComma (b :: rest))
        else .error (faultAfter .keyNotString (b :: rest))
    else .error (faultAfter .expectedObjectEnd (b :: rest))

/-- Reads the members up to the closing bracket; every round takes a name off. -/
def readMembers (members : List Member) : (fuel : Nat) → (first : Bool) → Slots members →
    Reader (Slots members)
  | 0, _, _, bytes => .error (faultAfter .endInObject bytes)
  | fuel + 1, first, slots, bytes =>
    match nextName first bytes with
    | .error fault => .error fault
    | .ok [] => .error (faultAfter .endInObject [])
    | .ok (b :: rest) =>
      if b = 125 then .ok (slots, rest)
      else
        match readString rest with
        | .error fault => .error fault
        | .ok (name, rest) =>
          match readMember name members slots rest with
          | .error fault => .error fault
          | .ok (slots, rest) => readMembers members fuel false slots rest

/-- Reads a structure from an object after its opening bracket. -/
def readObject (members : List Member) : Reader (Values members) := fun bytes =>
  match readMembers members (bytes.length + 1) true (Slots.empty members) bytes with
  | .error fault => .error fault
  | .ok (slots, rest) =>
    match Slots.values members slots with
    | .error name => .error (faultAt (.missingField name) rest)
    | .ok values => .ok (values, rest)

/-! ## Reading lists -/

/-- Goes to the next element of a list, or to the closing bracket. -/
def nextElement (first : Bool) (bytes : Bytes) : Except Fault Bytes :=
  match skipSpace bytes with
  | [] => .error (faultAfter .endInList [])
  | b :: rest =>
    if b = 93 || first then .ok (b :: rest)
    else if b = 44 then
      match skipSpace rest with
      | [] => .error (faultAfter .endInValue [])
      | b :: rest =>
        if b = 93 then .error (faultAfter .trailingComma (b :: rest)) else .ok (b :: rest)
    else .error (faultAfter .expectedListEnd (b :: rest))

/-- Reads the closing bracket of a list that must hold no more elements. -/
def closeList (bytes : Bytes) : Except Fault Bytes :=
  match skipSpace bytes with
  | [] => .error (faultAfter .endInList [])
  | b :: rest =>
    if b = 93 then .ok rest
    else if b = 44 then
      match skipSpace rest with
      | [] => .error (faultAfter .trailingCharacters [])
      | b :: rest =>
        .error (faultAfter (if b = 93 then .trailingComma else .trailingCharacters) (b :: rest))
    else .error (faultAfter .trailingCharacters (b :: rest))

/-- How many elements a structure has as a list. -/
def elementCount (title : String) (count : Nat) : String :=
  "struct " ++ title ++ " with " ++ toString count ++ if count = 1 then " element" else " elements"

/-- Reads the members of a structure in order, of which `done` have been read. -/
def readInOrder (title : String) (done : Nat) : (members : List Member) → Reader (Values members)
  | [], bytes => .ok ((), bytes)
  | m :: ms, bytes =>
    match nextElement (done = 0) bytes with
    | .error fault => .error fault
    | .ok [] => .error (faultAfter .endInList [])
    | .ok (b :: rest) =>
      if b = 93 then
        .error (faultAt (.wrongLength done (elementCount title (done + ms.length + 1))) rest)
      else
        match m.read (b :: rest) with
        | .error fault => .error fault
        | .ok (value, rest) =>
          match readInOrder title (done + 1) ms rest with
          | .error fault => .error fault
          | .ok (values, rest) => .ok ((value, values), rest)

/-- Reads a structure. -/
def readStruct (title : String) (members : List Member) : Reader (Values members) := fun bytes =>
  match skipSpace bytes with
  | [] => .error (faultAfter .endInValue [])
  | b :: rest =>
    if b = 123 then readObject members rest
    else if b = 91 then
      match readInOrder title 0 members rest with
      | .error fault => .error fault
      | .ok (values, rest) =>
        match closeList rest with
        | .error fault => .error fault
        | .ok rest => .ok (values, rest)
    else .error (wrongType ("struct " ++ title) (b :: rest))

/-- Reads elements up to the closing bracket; every round takes an element off. -/
def readElements (read : Reader α) : (fuel : Nat) → (done : List α) → Reader (List α)
  | 0, _, bytes => .error (faultAfter .endInList bytes)
  | fuel + 1, done, bytes =>
    match nextElement done.isEmpty bytes with
    | .error fault => .error fault
    | .ok [] => .error (faultAfter .endInList [])
    | .ok (b :: rest) =>
      if b = 93 then .ok (done.reverse, rest)
      else
        match read (b :: rest) with
        | .error fault => .error fault
        | .ok (value, rest) => readElements read fuel (value :: done) rest

/-- Reads a list. -/
def readList (read : Reader α) : Reader (List α) := fun bytes =>
  match skipSpace bytes with
  | [] => .error (faultAfter .endInValue [])
  | b :: rest =>
    if b = 91 then readElements read (rest.length + 1) [] rest
    else .error (wrongType "a sequence" (b :: rest))

/-! ## Writing -/

/-- The written members, each with its name. -/
def writeMembers : (members : List Member) → Values members → List Bytes
  | [], _ => []
  | m :: ms, (value, values) => (writeText m.name ++ 58 :: m.write value) :: writeMembers ms values

/-- The written form of a structure. -/
def writeStruct (members : List Member) (values : Values members) : Bytes :=
  123 :: ((writeMembers members values).intersperse [44]).flatten ++ [125]

/-- The written form of a list. -/
def writeList (write : α → Bytes) (values : List α) : Bytes :=
  91 :: ((values.map write).intersperse [44]).flatten ++ [93]

end PostStore.Json
