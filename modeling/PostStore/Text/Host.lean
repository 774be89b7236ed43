import PostStore.Text.Bytes
import PostStore.Text.Numeral
import PostStore.Text.Pieces
/-!
# Hosts

The written forms of what denotes a host: eight groups of sixteen bits, four octets as one to four
numbers, and names of labels.
-/

namespace PostStore

/-- What denotes a host. -/
inductive Host where
  | name (text : String)
  | address (groups : List Nat)
  deriving DecidableEq, Repr

namespace Host

/-- The number of at most 32 bits that digits of a base up to sixteen write. -/
def readBase (base : Nat) (digits : List Char) : Option Nat :=
  digits.foldlM (fun n c => do
    let d ← Text.hexValue? c
    if d < base && base * n + d < Nat.pow 2 32 then return base * n + d else none) 0

/-! ## Groups -/

/-- An octet without zeros in front. -/
def readOctet (text : List Char) : Option Nat :=
  if text ≠ [] && (text = ['0'] || text.head? ≠ some '0') then (Text.readDigits 255 0 text).toOption
  else none

/-- The groups that a piece of an address stands for; the last piece may be four octets. -/
def readPiece (isLast : Bool) (piece : List Char) : Option (List Nat) := do
  if piece = [] then none
  else if piece.length ≤ 4 then return [← readBase 16 piece]
  else if isLast then
    match ← (splitAtMarks (· = '.') piece).mapM readOctet with
    | [a, b, c, d] => return [256 * a + b, 256 * c + d]
    | _ => none
  else none

/-- The groups that some pieces stand for. -/
def readPieces (isLast : Bool) : List (List Char) → Option (List Nat)
  | [] => some []
  | [piece] => readPiece isLast piece
  | piece :: rest => do return (← readPiece false piece) ++ (← readPieces isLast rest)

/-- Takes one of two empty pieces off the front; a single one is not allowed there. -/
def trimGap : List (List Char) → Option (List (List Char))
  | [] :: [] :: rest => some ([] :: rest)
  | [] :: _ => none
  | pieces => some pieces

/-- The eight groups of an address; one run of groups that are zero may be left out. -/
def readGroups (text : List Char) : Option (List Nat) := do
  let front ← trimGap (splitAtMarks (· = ':') text)
  let pieces := (← trimGap front.reverse).reverse
  if [] ∈ pieces then
    let before ← readPieces false (pieces.takeWhile (· ≠ []))
    let after ← readPieces true ((pieces.dropWhile (· ≠ [])).drop 1)
    let count := before.length + after.length
    if count ≤ 7 then return before ++ List.replicate (8 - count) 0 ++ after else none
  else
    let groups ← readPieces true pieces
    if groups.length = 8 then return groups else none

/-- An address that is read has eight groups. -/
theorem length_of_readGroups {text : List Char} {groups : List Nat}
    (h : readGroups text = some groups) : groups.length = 8 := by
  unfold readGroups at h
  simp only [Option.bind_eq_bind, Option.bind_eq_some_iff] at h
  obtain ⟨front, -, pieces, -, h⟩ := h
  split at h
  · simp only [Option.bind_eq_some_iff] at h
    obtain ⟨before, -, after, -, h⟩ := h
    split at h
    · rename_i le
      simp only [Option.pure_def, Option.some.injEq] at h
      subst h
      simp only [List.length_append, List.length_replicate]
      omega
    · simp at h
  · simp only [Option.bind_eq_some_iff] at h
    obtain ⟨read, -, h⟩ := h
    split at h
    · rename_i eq
      simp only [Option.pure_def, Option.some.injEq] at h
      exact h ▸ eq
    · simp at h

/-- The first sixteen bits of addresses of many hosts at once. -/
def isMulticast (groups : List Nat) : Bool := groups.head?.any fun n => n / 256 = 255

/-- Whether an address belongs to a link that it does not tell. -/
def isLinkLocal (groups : List Nat) : Bool := groups.head?.any fun n => n / 64 = 1018

/-- Whether an address stands for four octets. -/
def isMapped (groups : List Nat) : Bool := groups.take 6 = [0, 0, 0, 0, 0, 65535]

/-! ## Names -/

/-- A number in base ten, or after a zero in base eight, or after `0x` in base sixteen. -/
def readNumber : List Char → Option Nat
  | [] => none
  | '0' :: x :: rest =>
    if x = 'x' ∨ x = 'X' then if rest = [] then none else readBase 16 rest
    else readBase 8 (x :: rest)
  | digits => readBase 10 digits

/-- Whether a name is four octets, written as up to four numbers of which the last fills what is
left. -/
def isOctets (name : List Char) : Bool :=
  match (splitAtMarks (· = '.') name).mapM readNumber with
  | none => false
  | some numbers =>
    let left := 4 - numbers.dropLast.length
    numbers.length ≤ 4 && numbers.dropLast.all (· < 256) &&
      numbers.getLast?.all (· < Nat.pow 256 left)

/-- The longest label. -/
def longestLabel : Nat := 63

/-- The longest name, without a point at its end. -/
def longestName : Nat := 253

/-- Whether a character can stand in a label. -/
def isLabelChar (c : Char) : Bool := c.isAlphanum || c = '-' || c = '_'

/-- A name without the point at its end. -/
def trimPoint (name : List Char) : List Char :=
  if name.getLast? = some '.' then name.dropLast else name

/-- Whether a name can be looked up: it consists of labels between points, or is one point for the
root of all names. -/
def isName (name : List Char) : Bool :=
  let labels := splitAtMarks (· = '.') (trimPoint name)
  let isLabel (label : List Char) : Bool :=
    label ≠ [] && label.length ≤ longestLabel && label.all isLabelChar
  name = ['.'] ||
    (name.head? ≠ some '-' && (trimPoint name).length ≤ longestName && labels.all isLabel)

/-- Whether a name stands for the machine itself. -/
def isOwn (name : List Char) : Bool :=
  name = ['*'] || name.map Char.toLower = "localhost".toList

end Host

end PostStore
