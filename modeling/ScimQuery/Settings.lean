import ScimQuery.Attribute.Path
import ScimQuery.Field
import ScimQuery.SearchRequest

/-! # Settings

The settings of the service, read from untyped fields, whose names may be in any case. -/

namespace ScimQuery

/-- Where the service runs. -/
inductive Environment where
  | development
  | staging
  | production
  deriving DecidableEq, Repr, Inhabited

namespace Environment

/-- The name of an environment. -/
def name : Environment → String
  | .development => "development"
  | .staging => "staging"
  | .production => "production"

/-- Every environment. -/
def all : List Environment := [.development, .staging, .production]

/-- An environment by its name. -/
def read (v : Json) : Field.Reading Environment := do
  let s ← Field.text v
  match all.find? (·.name == s) with
  | some environment => pure environment
  | none =>
    Field.fail (.rule "Environment must be one of ['development', 'staging', 'production']")

end Environment

/-- How much is logged. -/
inductive LogLevel where
  | debug
  | info
  | warning
  | error
  | critical
  deriving DecidableEq, Repr, Inhabited

namespace LogLevel

/-- The name of a level. -/
def name : LogLevel → String
  | .debug => "DEBUG"
  | .info => "INFO"
  | .warning => "WARNING"
  | .error => "ERROR"
  | .critical => "CRITICAL"

/-- Every level. -/
def all : List LogLevel := [.debug, .info, .warning, .error, .critical]

/-- The upper-case form of a character, so far as it matters to the names of levels: `ı` is the
one character beyond ASCII whose upper-case form stands in one of them. -/
def upperChar (c : Char) : Char := if c = 'ı' then 'I' else c.toUpper

/-- A level by its name in any case. -/
def read (v : Json) : Field.Reading LogLevel := do
  let s ← Field.text v
  match all.find? (·.name.toList == s.toList.map upperChar) with
  | some level => pure level
  | none =>
    Field.fail
      (.rule "Log level must be one of ['DEBUG', 'INFO', 'WARNING', 'ERROR', 'CRITICAL']")

end LogLevel

/-- The settings of the service. -/
structure Settings where
  databaseUrl : String := "sqlite://db.sqlite3"
  appName : String := "scimfilter"
  environment : Environment := .development
  debug : Bool := false
  logLevel : LogLevel := .info
  defaultPageSize : Int := SearchRequest.defaultCount
  maxPageSize : Int := SearchRequest.maxCount
  deriving Repr

namespace Settings

/-- The settings that nothing changes. -/
def default : Settings := { }

/-- A setting under its name in any case, the first member that has it, or its default. -/
def read {α : Type} (fields : Object) (name : String) (default : α)
    (reader : Json → Field.Reading α) : Field.Reading α :=
  match fields.member? name with
  | some (_, v) => Field.within (.name name) (reader v)
  | none => .ok default

/-- Settings from fields, or every problem, in the order of the fields. -/
def ofFields (fields : Object) : Field.Reading Settings :=
  let databaseUrl := read fields "database_url" default.databaseUrl Field.text
  let appName := read fields "app_name" default.appName Field.text
  let environment := read fields "environment" default.environment Environment.read
  let debug := read fields "debug" default.debug Field.truth
  let logLevel := read fields "log_level" default.logLevel LogLevel.read
  let defaultPageSize := read fields "default_page_size" default.defaultPageSize Field.integer
  let maxPageSize := read fields "max_page_size" default.maxPageSize Field.integer
  match databaseUrl, appName, environment, debug, logLevel, defaultPageSize, maxPageSize with
  | .ok databaseUrl, .ok appName, .ok environment, .ok debug, .ok logLevel, .ok defaultPageSize,
      .ok maxPageSize =>
    .ok { databaseUrl, appName, environment, debug, logLevel, defaultPageSize, maxPageSize }
  | databaseUrl, appName, environment, debug, logLevel, defaultPageSize, maxPageSize =>
    .error (Field.problems databaseUrl ++ Field.problems appName ++ Field.problems environment
      ++ Field.problems debug ++ Field.problems logLevel ++ Field.problems defaultPageSize
      ++ Field.problems maxPageSize)

/-- Whether the service is in production. -/
def isProduction (s : Settings) : Bool := s.environment = .production

/-- How the store is reached: its connection, its tables, and times in UTC. -/
def storeConfig (s : Settings) : Json :=
  .object [
    ("connections", .object [("default", .text s.databaseUrl)]),
    ("apps", .object [("models", .object [
      ("models", .array [.text "scimfilter.models"]),
      ("default_connection", .text "default")])]),
    ("use_tz", .bool true),
    ("timezone", .text "UTC")]

end Settings
end ScimQuery
