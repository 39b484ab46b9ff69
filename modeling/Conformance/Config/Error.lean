import Conformance.Error

/-!
# Errors of a configuration

What is wrong inside a TOML or JSON file is not part of these errors: that is for the reader of
the file to say.
-/

namespace Conformance

/-- Why there is no configuration. -/
inductive ConfigError where
  | unreadable (cause : FileError)
  | toml
  | json
  | invalid (description : String)
  | environment (description : String)
  | unsupported (extension : String)
deriving DecidableEq, Repr

namespace ConfigError

/-- The wording of an error. -/
def message : ConfigError → String
  | .unreadable cause => "IO error: " ++ cause.message
  | .toml => "TOML parsing error"
  | .json => "JSON parsing error"
  | .invalid description => "Configuration validation error: " ++ description
  | .environment description => "Environment variable error: " ++ description
  | .unsupported extension => "Unsupported configuration file format: " ++ extension

/-- A variable whose value is the name of nothing. -/
def badVariable (name value : String) : ConfigError :=
  .environment ("Invalid " ++ name ++ " value: " ++ value)

/-- An error of the configuration as the failure of a validation. -/
def toValidation (error : ConfigError) : ValidationError :=
  .configuration error.message

end ConfigError

end Conformance
