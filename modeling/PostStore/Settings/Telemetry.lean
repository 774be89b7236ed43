import PostStore.Settings.Environment
/-!
# Telemetry

How the service names itself in its log, and in what form the log is written.
-/

namespace PostStore

/-- The forms of log lines. -/
inductive LogFormat where
  | json
  | pretty
  deriving DecidableEq, Repr

/-- What the log is set up with. -/
structure Telemetry where
  serviceName : String
  environment : String
  logFormat : LogFormat
  defaultFilter : String
  deriving DecidableEq

/-- The telemetry that an environment describes.  Values are taken as they are, also empty ones. -/
def Environment.telemetry (env : Environment) : Telemetry where
  serviceName := (env (variableName "SERVICE_NAME")).getD "crudstore"
  environment := (env (variableName "ENVIRONMENT")).getD "development"
  logFormat :=
    match env (variableName "LOG_FORMAT") with
    | some text =>
      if text.toList.map Char.toLower = "pretty".toList then .pretty else .json
    | none => .json
  defaultFilter := "crudstore_service=info,crudstore_storage=info,warn"

end PostStore
