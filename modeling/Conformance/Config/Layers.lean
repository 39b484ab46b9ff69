import Conformance.Config.File
import Conformance.Environment

/-!
# Layers of a configuration

A configuration is made of four layers, each over the one before: the defaults, a file, the
environment and the command line. Only the outcome is checked: its catalog has to be a file.
-/

namespace Conformance

/-- What a command line says of the configuration. -/
structure Overrides where
  catalog : Option String
  logLevel : Option LogLevel
  logFormat : Option LogFormat
  reportFormat : Option ReportFormat
deriving DecidableEq, Repr

/-- A configuration with what a command line says in place of what it had. -/
def Overrides.apply (overrides : Overrides) (config : Config) : Config where
  catalog := overrides.catalog <|> config.catalog
  logLevel := overrides.logLevel.getD config.logLevel
  logFormat := overrides.logFormat.getD config.logFormat
  reportFormat := overrides.reportFormat.getD config.reportFormat

namespace Config

/-! ## Files -/

/-- A configuration with another one over it. A catalog that the upper one does not name stays. -/
def merge (base upper : Config) : Config where
  catalog := upper.catalog <|> base.catalog
  logLevel := upper.logLevel
  logFormat := upper.logFormat
  reportFormat := upper.reportFormat

/-! ## The environment -/

/-- The variable of the catalog. -/
def catalogVariable : String := "XML_SCHEMER_CATALOG"

/-- The variable of the level of the log. -/
def logLevelVariable : String := "XML_SCHEMER_LOG_LEVEL"

/-- The variable of the form of the log. -/
def logFormatVariable : String := "XML_SCHEMER_LOG_FORMAT"

/-- The variable of the form of the report. -/
def reportFormatVariable : String := "XML_SCHEMER_OUTPUT_FORMAT"

/-- The choice that a variable names, in any case, or what was there if it is not set. -/
def chosen {α : Type} [Choice α] (environment : Environment) (name : String) (current : α) :
    Except ConfigError α :=
  match environment name with
  | none => .ok current
  | some value =>
    match Choice.namedFolded? value with
    | some choice => .ok choice
    | none => .error (.badVariable name value)

/-- A configuration with what the environment says in place of what it had. -/
def applyEnvironment (environment : Environment) (config : Config) :
    Except ConfigError Config := do
  let catalog := environment catalogVariable <|> config.catalog
  let logLevel ← chosen environment logLevelVariable config.logLevel
  let logFormat ← chosen environment logFormatVariable config.logFormat
  let reportFormat ← chosen environment reportFormatVariable config.reportFormat
  return { catalog, logLevel, logFormat, reportFormat }

/-! ## The whole -/

/-- Whether a configuration holds: if it names a catalog, that has to be a file. -/
def validate (files : Files) (config : Config) : Except ConfigError Unit :=
  match config.catalog with
  | none => .ok ()
  | some path =>
    if path = "" then .error (.invalid "Catalog path must not be empty")
    else if files.isFile path then .ok ()
    else .error (.invalid ("File " ++ path ++ " does not exist."))

/-- The layer of the file: the one that is named, else the one that is found, if any. -/
def fileLayer (files : Files) (path : Option String) : Except ConfigError (Option Config) :=
  match path with
  | some path => (ofFile files path).map some
  | none => ofFound files

/-- The configuration of all layers. -/
def load (files : Files) (environment : Environment) (path : Option String)
    (overrides : Overrides) : Except ConfigError Config := do
  let layer ← fileLayer files path
  let config ← applyEnvironment environment (layer.elim default (merge default))
  let config := overrides.apply config
  validate files config
  return config

end Config

end Conformance
