import PostStore.Error
import PostStore.Text.Blank
import PostStore.Text.Numeral
/-!
# Environment variables

Settings come from variables of one family.  A variable that is empty counts as unset.
-/

namespace PostStore

/-- The values of variables. -/
abbrev Environment := String → Option String

namespace Environment

/-- The full name of a variable of the family. -/
def variableName (name : String) : String := "CRUDSTORE_" ++ name

/-- The value of a variable of the family, if it is set and not empty. -/
def text? (env : Environment) (name : String) : Option String :=
  (env (variableName name)).filter (· ≠ "")

/-- The value of a variable, or a default. -/
def textOr (env : Environment) (name default : String) : String := (env.text? name).getD default

/-- The number that a variable holds between blanks, or a default. -/
def numberOr (env : Environment) (name : String) (bound default : Nat) : Except SettingsError Nat :=
  match env.text? name with
  | none => .ok default
  | some raw =>
    match Text.readUnsigned bound (Text.trim raw.toList) with
    | .ok n => .ok n
    | .error e => .error (.invalid (variableName name) raw e.message)

/-- What a variable names, or a default. -/
def kindOr (env : Environment) (name : String) (parse : String → Except SettingsError α)
    (default : α) : Except SettingsError α :=
  match env.text? name with
  | none => .ok default
  | some raw => parse raw

end Environment

end PostStore
