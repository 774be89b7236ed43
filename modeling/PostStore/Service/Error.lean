import PostStore.Error
import PostStore.Json.Members
/-!
# What the service says went wrong

Two codes are all that a client sees: a missing post or a malformed request is the client's mistake,
anything else is internal, and nothing of the underlying failure is told.
-/

namespace PostStore

/-- Whose mistake it was. -/
inductive ErrorCode where
  | invalidArgument
  | internal
  deriving DecidableEq, Repr

/-- The failure that a client sees. -/
structure ServiceError where
  code : ErrorCode
  message : String
  deriving DecidableEq, Repr

/-- Why the service gives no result: it refuses with an error, or the store below has no answer. -/
inductive Refusal where
  | reply (error : ServiceError)
  | unanswered
  deriving DecidableEq, Repr

namespace ErrorCode

/-- What is said when there is nothing more to say. -/
def defaultMessage : ErrorCode → String
  | .invalidArgument => "Invalid argument"
  | .internal => "Internal server error"

/-- The name of a code. -/
def name : ErrorCode → String
  | .invalidArgument => "InvalidArgument"
  | .internal => "Internal"

/-- The name of a code in documents. -/
def documentName : ErrorCode → String
  | .invalidArgument => "INVALID_ARGUMENT"
  | .internal => "INTERNAL"

end ErrorCode

namespace ServiceError

/-- A refusal of the client's arguments. -/
def invalidArgument (message : String) : ServiceError := ⟨.invalidArgument, message⟩

/-- A failure that is not the client's. -/
def internal : ServiceError := ⟨.internal, ErrorCode.internal.defaultMessage⟩

/-- The wording of a failure. -/
def text (error : ServiceError) : String := error.code.name ++ ": " ++ error.message

end ServiceError

/-- What a client sees of a failure of the store. -/
def Refusal.ofStore : StoreError → Refusal
  | .notFound _ _ => .reply (.invalidArgument "Post does not exist")
  | .noLaterInstant => .unanswered
  | _ => .reply .internal

/-- What a client sees of any failure. -/
def Refusal.ofFailure : Failure → Refusal
  | .store error => .ofStore error
  | _ => .reply .internal

/-! ## Documents -/

open Json

/-- The code with a name in documents. -/
def ErrorCode.ofDocumentName (name : String) : Except Reason ErrorCode :=
  let known := [ErrorCode.invalidArgument, .internal]
  match known.find? (·.documentName = name) with
  | some code => .ok code
  | none => .error (.unknownVariant name (known.map (·.documentName)))

/-- Reads the name of a code. -/
def ErrorCode.readName : Reader ErrorCode :=
  readQuoted "variant identifier" ErrorCode.ofDocumentName

/-- Reads the name of a code as the first name in an object, which must not be empty. -/
def ErrorCode.readKey : Reader ErrorCode := fun bytes =>
  match skipSpace bytes with
  | [] => .error (faultAt .endInObject [])
  | b :: rest =>
    if b = 34 then readName (b :: rest)
    else if b = 125 then .error (faultAfter .expectedValue (b :: rest))
    else .error (faultAfter .keyNotString (b :: rest))

/-- Reads a code: its name, or an object with nothing under that name. -/
def ErrorCode.read : Reader ErrorCode := fun bytes =>
  match skipSpace bytes with
  | [] => .error (faultAfter .endInValue [])
  | b :: rest =>
    if b = 34 then readName (b :: rest)
    else if b = 123 then
      match readKey rest with
      | .error fault => .error fault
      | .ok (code, rest) =>
        match skipColon rest with
        | .error fault => .error fault
        | .ok rest =>
          match readNull rest with
          | .error fault => .error fault
          | .ok (_, rest) =>
            match skipSpace rest with
            | [] => .error (faultAt .endInObject [])
            | b :: rest =>
              if b = 125 then .ok (code, rest) else .error (faultAt .expectedValue (b :: rest))
    else .error (faultAfter .expectedValue (b :: rest))

/-- The written form of a code. -/
def ErrorCode.write (code : ErrorCode) : Bytes := writeText code.documentName

/-- The members of the document of an error. -/
def ServiceError.members : List Member :=
  [⟨"code", ErrorCode, ErrorCode.read, ErrorCode.write⟩, .text "message"]

/-- Reads an error. -/
def ServiceError.read : Reader ServiceError := fun bytes =>
  match readStruct "ServiceError" members bytes with
  | .error fault => .error fault
  | .ok ((code, message, ()), rest) => .ok (⟨code, message⟩, rest)

/-- The written form of an error. -/
def ServiceError.write (error : ServiceError) : Bytes :=
  writeStruct members (error.code, error.message, ())

end PostStore
