import PostStore.Proofs.Settings.Loading
import PostStore.Settings.Telemetry
/-!
# The names of a service

The settings and the telemetry of a service both give its name and the environment it runs in, each
from the same two variables and with the same defaults.  To the settings a variable that is empty is
as good as unset, while the telemetry takes it as it is.  So the two agree on the service just where
neither variable is empty, and always in an environment that has been rid of its empty variables,
which to the settings is the same one.
-/

namespace PostStore

namespace Environment

variable {env other : Environment}

/-! ## Variables that are empty -/

/-- The environment with its empty variables unset. -/
def withoutEmpty (env : Environment) : Environment := fun name => (env name).filter (· ≠ "")

@[simp]
theorem text?_withoutEmpty (env : Environment) (name : String) :
    env.withoutEmpty.text? name = env.text? name := by
  simp [text?, withoutEmpty, Option.filter_filter]

theorem withoutEmpty_ne_empty (env : Environment) (name : String) :
    env.withoutEmpty name ≠ some "" := by
  simp [withoutEmpty, Option.filter_eq_some_iff]

theorem textOr_congr (same : env.text? = other.text?) (name default : String) :
    env.textOr name default = other.textOr name default := by
  rw [textOr, textOr, same]

theorem kindOr_congr {α : Type} (same : env.text? = other.text?) (name : String)
    (parse : String → Except SettingsError α) (default : α) :
    env.kindOr name parse default = other.kindOr name parse default := by
  rw [kindOr, kindOr, same]

theorem numberOr_congr (same : env.text? = other.text?) (name : String) (bound default : Nat) :
    env.numberOr name bound default = other.numberOr name bound default :=
  kindOr_congr same name (Reading.parseNumber name bound) default

/-- Settings depend only on the texts of variables that are not empty. -/
theorem settings_congr (same : env.text? = other.text?) : env.settings = other.settings := by
  simp only [settings, storeSettings, cacheSettings, databaseSettings, redisSettings,
    textOr_congr same, kindOr_congr same, numberOr_congr same, same]

theorem settings_withoutEmpty (env : Environment) : env.withoutEmpty.settings = env.settings :=
  settings_congr (funext env.text?_withoutEmpty)

end Environment

/-! ## Names -/

open Environment

/-- A name that is told and one that is loaded differ only where their variable is empty: the one is
empty then, and the other the default. -/
structure Named (env : Environment) (name default told loaded : String) : Prop where
  told_eq_iff : told = loaded ↔ env (variableName name) ≠ some ""
  told_of_empty : env (variableName name) = some "" → told = ""
  loaded_of_empty : env (variableName name) = some "" → loaded = default

variable {env : Environment} {s : Settings}

theorem textOr_of_empty {name : String} (default : String)
    (empty : env (variableName name) = some "") : env.textOr name default = default := by
  rw [textOr, text?, empty]
  rfl

theorem textOr_of_not_empty {name : String} (default : String)
    (other : env (variableName name) ≠ some "") :
    env.textOr name default = (env (variableName name)).getD default := by
  cases here : env (variableName name) with
  | none => simp [textOr, text?, here]
  | some raw =>
    have set : env.Sets name raw := ⟨here, fun empty => other (empty ▸ here)⟩
    rw [textOr, text?_eq_some.2 set]

/-- A text taken as it is, and the same text where an empty one is replaced by the default. -/
theorem named_textOr (env : Environment) (name default : String) (nonempty : default ≠ "") :
    Named env name default ((env (variableName name)).getD default) (env.textOr name default) where
  told_eq_iff := by
    refine ⟨fun same empty => nonempty ?_, fun other => (textOr_of_not_empty default other).symm⟩
    rw [textOr_of_empty default empty, empty] at same
    exact same.symm
  told_of_empty empty := by rw [empty, Option.getD_some]
  loaded_of_empty := textOr_of_empty default

/-- Without its empty variables an environment has each text as it is loaded. -/
theorem getD_withoutEmpty (env : Environment) (name default : String) (nonempty : default ≠ "") :
    (env.withoutEmpty (variableName name)).getD default = env.textOr name default := by
  rw [← textOr_congr (funext env.text?_withoutEmpty)]
  exact (named_textOr env.withoutEmpty name default nonempty).told_eq_iff.2
    (withoutEmpty_ne_empty env (variableName name))

theorem names_of_settings (loaded : env.settings = .ok s) :
    s.serviceName = env.textOr "SERVICE_NAME" "crudstore" ∧
      s.environment = env.textOr "ENVIRONMENT" "development" := by
  have described := (settings_eq_ok.1 loaded).1
  simp only [Settings.variables, describes_append, describes_cons, Reading.loads_text] at described
  exact ⟨described.1.1.1, described.1.1.2.1⟩

/-- **Telemetry and settings name one service unless a name is empty.**  Wherever settings are
loaded, each of the two names that the telemetry tells is the one of the settings just if its
variable is not empty, whatever else it may hold; where it is empty, an empty name is told and the
settings have the default.  Without its empty variables the environment has the same settings, and
the telemetry then agrees with them. -/
theorem telemetry_names (env : Environment) (s : Settings) (loaded : env.settings = .ok s) :
    Named env "SERVICE_NAME" "crudstore" env.telemetry.serviceName s.serviceName ∧
    Named env "ENVIRONMENT" "development" env.telemetry.environment s.environment ∧
    env.withoutEmpty.settings = .ok s ∧
    env.withoutEmpty.telemetry.serviceName = s.serviceName ∧
    env.withoutEmpty.telemetry.environment = s.environment := by
  obtain ⟨service, environment⟩ := names_of_settings loaded
  rw [service, environment]
  refine ⟨named_textOr env _ _ (by decide), named_textOr env _ _ (by decide), ?_, ?_, ?_⟩
  · rw [settings_withoutEmpty, loaded]
  · exact getD_withoutEmpty env _ _ (by decide)
  · exact getD_withoutEmpty env _ _ (by decide)

/-- A name that is empty and an environment that is blank: the one is told as empty where the
settings have the default, the other is the same for both. -/
theorem telemetry_names_empty_blank :
    let env : Environment := fun
      | "CRUDSTORE_SERVICE_NAME" => some ""
      | "CRUDSTORE_ENVIRONMENT" => some " "
      | _ => none
    let s : Settings := { environment := " " }
    env.settings = .ok s ∧ env.telemetry.serviceName = "" ∧ s.serviceName = "crudstore" ∧
      env.telemetry.environment = s.environment := by
  intro env s
  have loaded : env.settings = .ok s := rfl
  obtain ⟨service, environment, -⟩ := telemetry_names env s loaded
  exact ⟨loaded, service.told_of_empty rfl, service.loaded_of_empty rfl,
    environment.told_eq_iff.2 (by decide)⟩

/-- An environment with an empty name for the service loads, and telemetry tells another name. -/
theorem telemetry_not_settings :
    ¬ ∀ (env : Environment) (s : Settings), env.settings = .ok s →
      env.telemetry.serviceName = s.serviceName ∧ env.telemetry.environment = s.environment := by
  intro agree
  let env : Environment := fun
    | "CRUDSTORE_SERVICE_NAME" => some ""
    | "CRUDSTORE_ENVIRONMENT" => some ""
    | _ => none
  have loaded : env.settings = .ok {} := rfl
  exact absurd (agree env {} loaded).1 (by decide)

end PostStore
