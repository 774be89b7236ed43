import PostStore.Calendar.Rfc3339.Writer
import PostStore.Error
import PostStore.Post.Basic
import PostStore.Text.Quoted
/-!
# Assertions

Checks of results that say what was found when they fail.
-/

namespace PostStore.Assertion

open Text

/-- A failure of a store with all that it holds. -/
def showError : StoreError → String
  | .notFound user id =>
    "NotFound \x7b user_id: " ++ quote user ++ ", post_id: " ++ quote id ++ " \x7d"
  | .backend store reason =>
    "Backend \x7b backend: " ++ quote store ++ ", reason: " ++ quote reason ++ " \x7d"
  | .decode store reason =>
    "Decode \x7b backend: " ++ quote store ++ ", reason: " ++ quote reason ++ " \x7d"
  | .lockPoisoned => "LockPoisoned"
  | .misuse => "IteratorMisuse"
  | .noLaterInstant => "NoLaterInstant"

/-- A result with all that it holds. -/
def showResult (showValue : α → String) : Except StoreError α → String
  | .ok value => "Ok(" ++ showValue value ++ ")"
  | .error e => "Err(" ++ showError e ++ ")"

/-- Checks that a result is the failure of a missing post. -/
def notFound (showValue : α → String) : Except StoreError α → Except String Unit
  | .error (.notFound _ _) => .ok ()
  | result => .error ("Expected NotFound error, got: " ++ showResult showValue result)

/-- Checks that a result is a failure of the medium. -/
def backendError (showValue : α → String) : Except StoreError α → Except String Unit
  | .error (.backend _ _) => .ok ()
  | result => .error ("Expected Backend error, got: " ++ showResult showValue result)

/-- Checks that two values are the same. -/
def equal [DecidableEq α] (showValue : α → String) (what : String) (left right : α) :
    Except String Unit :=
  if left = right then .ok ()
  else .error ("assertion \x60left == right\x60 failed: " ++ what ++ " differs\n  left: " ++
    showValue left ++ "\n right: " ++ showValue right)

/-- Checks that two posts are the same, member by member. -/
def samePost (actual expected : Post) : Except String Unit := do
  equal quote "user_id" actual.user expected.user
  equal quote "post_id" actual.id expected.id
  equal quote "data" actual.data expected.data
  equal Instant.toText "created_at" actual.createdAt expected.createdAt
  equal Instant.toText "updated_at" actual.updatedAt expected.updatedAt

end PostStore.Assertion
