/-!
# Refusals of the operating system

The causes for which the operating system refuses to open, to make or to reach something, with their
numbers.
-/

namespace PostStore.Files

/-- Why the operating system refuses. -/
inductive SystemError where
  | missing
  | noDevice
  | noMemory
  | occupied
  | notDirectory
  | isDirectory
  | invalid
  | nameTooLong
  | addressNotAvailable
  | unreachable
  | refused
  deriving DecidableEq, Repr

/-- The number of a cause. -/
def SystemError.number : SystemError → Nat
  | .missing => 2
  | .noDevice => 6
  | .noMemory => 12
  | .occupied => 17
  | .notDirectory => 20
  | .isDirectory => 21
  | .invalid => 22
  | .nameTooLong => 36
  | .addressNotAvailable => 99
  | .unreachable => 101
  | .refused => 111

/-- What a cause is called. -/
def SystemError.name : SystemError → String
  | .missing => "No such file or directory"
  | .noDevice => "No such device or address"
  | .noMemory => "Cannot allocate memory"
  | .occupied => "File exists"
  | .notDirectory => "Not a directory"
  | .isDirectory => "Is a directory"
  | .invalid => "Invalid argument"
  | .nameTooLong => "File name too long"
  | .addressNotAvailable => "Cannot assign requested address"
  | .unreachable => "Network is unreachable"
  | .refused => "Connection refused"

/-- The wording of a refusal. -/
def SystemError.message (e : SystemError) : String :=
  e.name ++ " (os error " ++ toString e.number ++ ")"

end PostStore.Files
