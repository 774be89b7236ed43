import PostStore.Text.Numeral
import PostStore.Text.Quoted
/-!
# Replies of the key-value server

The values that the server replies with, what they are worth as text, as numbers, as lists and as
bytes, and the wording of what is wrong with those that are not what was asked for.
-/

namespace PostStore.Redis

/-- A reply. -/
inductive Reply where
  | nil
  | int (value : Int)
  | status (text : String)
  | bulk (bytes : Bytes)
  | array (items : List Reply)
  | error (line : String)
  deriving Inhabited

/-- What is wrong with a reply. -/
inductive Problem where
  /-- The server signals an error of a known kind. -/
  | signalled (kind : String) (detail : Option String)
  /-- The server signals an error with a code of its own. -/
  | coded (code : String) (detail : Option String)
  /-- Bytes are not text. -/
  | notText
  /-- Bytes are not the text of a number, as they are no text. -/
  | notNumeral
  /-- The reply has the wrong shape, shown as given. -/
  | incompatible (why shown : String)
  deriving DecidableEq, Repr

/-- The wording of a problem. -/
def Problem.message : Problem → String
  | .signalled kind (some detail) =>
    "An error was signalled by the server - " ++ kind ++ ": " ++ detail
  | .signalled kind none => "An error was signalled by the server- " ++ kind
  | .coded code detail => code ++ ": " ++ detail.getD "Unknown extension error encountered"
  | .notText => "Cannot convert from UTF-8- TypeError"
  | .notNumeral => "Invalid UTF-8- TypeError"
  | .incompatible why shown =>
    "Response was of incompatible type - TypeError: " ++ Text.quote why ++ " (response was " ++
      shown ++ ")"

/-! ## Signalled errors -/

/-- The kinds of errors that the server is known to signal, by code. -/
def knownCodes : List (String × String) := [
  ("ERR", "ResponseError"), ("EXECABORT", "ExecAbortError"), ("LOADING", "BusyLoadingError"),
  ("NOSCRIPT", "NoScriptError"), ("MOVED", "Moved"), ("ASK", "Ask"), ("TRYAGAIN", "TryAgain"),
  ("CLUSTERDOWN", "ClusterDown"), ("CROSSSLOT", "CrossSlot"), ("MASTERDOWN", "MasterDown"),
  ("READONLY", "ReadOnly"), ("NOTBUSY", "NotBusy"), ("NOSUB", "NoSub")]

/-- The problem that an error line describes: a code, and what follows the first space. -/
def Problem.ofLine (line : String) : Problem :=
  let code := String.ofList (line.toList.takeWhile (· ≠ ' '))
  let detail := match line.toList.dropWhile (· ≠ ' ') with
    | [] => none
    | _ :: rest => some (String.ofList rest)
  match knownCodes.lookup code with
  | some kind => .signalled kind detail
  | none => .coded code detail

mutual

/-- The first error inside a reply. -/
def Reply.problem? : Reply → Option Problem
  | .error line => some (.ofLine line)
  | .array items => firstProblem? items
  | _ => none

/-- The first error inside some replies. -/
def firstProblem? : List Reply → Option Problem
  | [] => none
  | item :: items => item.problem?.or (firstProblem? items)

end

/-- The reply, unless there is an error in it. -/
def Reply.checked (reply : Reply) : Except Problem Reply :=
  match reply.problem? with
  | some problem => .error problem
  | none => .ok reply

/-! ## Shown form -/

mutual

/-- How a reply is shown. -/
def Reply.text : Reply → String
  | .nil => "nil"
  | .int value => "int(" ++ toString value ++ ")"
  | .status text => if text = "OK" then "ok" else "simple-string(" ++ Text.quote text ++ ")"
  | .bulk bytes =>
    match Text.ofUtf8? bytes with
    | some text => "bulk-string('" ++ Text.quote text ++ "')"
    | none =>
      "binary-data([" ++ String.intercalate ", " (bytes.map fun b => toString b.toNat) ++ "])"
  | .array items => "array([" ++ String.intercalate ", " (shownItems items) ++ "])"
  | .error line => "server-error(" ++ Text.quote line ++ ")"

/-- How some replies are shown. -/
def shownItems : List Reply → List String
  | [] => []
  | item :: items => item.text :: shownItems items

end

/-- The problem of a reply of the wrong shape. -/
def Reply.incompatible (reply : Reply) (why : String) : Problem := .incompatible why reply.text

/-! ## What a reply is worth -/

/-- The text of a reply. -/
def Reply.toText (reply : Reply) : Except Problem String :=
  match reply with
  | .bulk bytes =>
    match Text.ofUtf8? bytes with
    | some text => .ok text
    | none => .error .notText
  | .status text => .ok text
  | .int value => .ok (toString value)
  | _ => .error (reply.incompatible "Response type not string compatible.")

/-- The text of a reply, unless it is nil. -/
def Reply.toText? (reply : Reply) : Except Problem (Option String) :=
  match reply with
  | .nil => .ok none
  | _ => reply.toText.map some

/-- The unsigned number below `2 ^ bits` of a reply; a whole number is taken modulo that bound, and
the status of success is no number. -/
def Reply.toUnsigned (bits : Nat) (reply : Reply) : Except Problem Nat :=
  let parse (text : String) : Except Problem Nat :=
    match Text.readUnsigned (Nat.pow 2 bits - 1) text.toList with
    | .ok n => .ok n
    | .error _ => .error (reply.incompatible "Could not convert from string.")
  let refused := reply.incompatible "Response type not convertible to numeric."
  match reply with
  | .int value => .ok (value % Nat.pow 2 bits).toNat
  | .status text => if text = "OK" then .error refused else parse text
  | .bulk bytes =>
    match Text.ofUtf8? bytes with
    | some text => parse text
    | none => .error .notNumeral
  | _ => .error refused

/-- The texts of a list; bytes stand for a list of one. -/
def Reply.toTexts (reply : Reply) : Except Problem (List String) :=
  match reply with
  | .nil => .ok []
  | .array items => items.mapM Reply.toText
  | .bulk bytes =>
    match Text.ofUtf8? bytes with
    | some text => .ok [text]
    | none => .error .notText
  | _ => .error (reply.incompatible "Response type not vector compatible.")

/-- The bytes of a reply, unless it is nil; a list stands for bytes when its items do. -/
def Reply.toBytes? (reply : Reply) : Except Problem (Option Bytes) :=
  match reply with
  | .nil => .ok none
  | .bulk bytes => .ok (some bytes)
  | .array items => do
    let numbers ← items.mapM (Reply.toUnsigned 8)
    return some (numbers.map UInt8.ofNat)
  | _ => .error (reply.incompatible "Response type not vector compatible.")

/-- The cursor and the texts of a reply to a scan. -/
def Reply.toScan (reply : Reply) : Except Problem (Nat × List String) :=
  match reply with
  | .array [cursor, items] => do
    let cursor ← cursor.toUnsigned 64
    let texts ← items.toTexts
    return (cursor, texts)
  | .array _ => .error (reply.incompatible "Array response of wrong dimension")
  | _ => .error (reply.incompatible "Not a Array response")

end PostStore.Redis
