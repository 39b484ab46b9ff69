import Conformance.File.Path

/-!
# The environment

The variables of a program, and the directory for the configuration of the user that they name.
-/

namespace Conformance

/-- The environment of a program: the values of its variables. One whose value is no text counts as
not set. -/
abbrev Environment := String → Option String

namespace Environment

/-- The variable of the directory for configuration. -/
def configVariable : String := "XDG_CONFIG_HOME"

/-- The variable of the home directory. -/
def homeVariable : String := "HOME"

/-- The directory for the configuration of the user: the one that is named by an absolute path,
else the usual one in the home directory, if there is one. -/
def userDirectory (environment : Environment) : Option RawPath :=
  ((environment configVariable).filter Path.isAbsolute).map RawPath.ofString <|>
    ((environment homeVariable).filter (· ≠ "")).map fun home => RawPath.join home ".config"

end Environment

end Conformance
