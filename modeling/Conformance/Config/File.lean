import Conformance.Config.Basic
import Conformance.Config.Error
import Conformance.File.Access
import Conformance.Json.Reader
import Conformance.Toml.Reader

/-!
# Configuration files

The extension of a file says which format it has; without one, or with one that is no text, it is
TOML if it can be read as TOML, else JSON. A file that is not named is looked for under four names,
in the working directory and then in the directory for the configuration of the user; the first one
found is the one, also if it cannot be read.
-/

namespace Conformance

namespace Config

/-- The configuration that a TOML text is. -/
def ofToml? (text : String) : Option Config :=
  (Toml.read? text).bind fun value => ofSetting? .toml (.ofToml value)

/-- The configuration that a JSON text is. -/
def ofJson? (text : String) : Option Config :=
  (Json.read? text).bind fun value => ofSetting? .json (.ofJson value)

/-- The configuration that a text is, given the extension of its file. -/
def ofText (extension : Option String) (text : String) : Except ConfigError Config :=
  match extension with
  | some "toml" => (ofToml? text).elim (.error .toml) .ok
  | some "json" => (ofJson? text).elim (.error .json) .ok
  | some extension => .error (.unsupported extension)
  | none => (ofToml? text <|> ofJson? text).elim (.error .json) .ok

/-- The configuration in a file. -/
def ofFile (files : Files) (path : RawPath) : Except ConfigError Config :=
  match files.readText path with
  | .ok text => ofText path.extension? text
  | .error cause => .error (.unreadable cause)

/-- The names that a configuration file may have, the first choice first. -/
def fileNames : List String :=
  ["xml-schemer.toml", "xml-schemer.json", ".xml-schemer.toml", ".xml-schemer.json"]

/-- The name of the directory below that for the configuration of the user. -/
def directoryName : String := "xml-schemer"

/-- The paths where a configuration file may be, the first choice first. -/
def candidates (files : Files) : List RawPath :=
  let directories : List RawPath := "." ::
    (files.userDirectory.map fun directory => directory.join directoryName).toList
  directories.flatMap fun directory => fileNames.map directory.join

/-- The path of the configuration file, if there is one. -/
def find? (files : Files) : Option RawPath :=
  (candidates files).find? files.isFile

/-- The configuration in the file that is found, if there is one. -/
def ofFound (files : Files) : Except ConfigError (Option Config) :=
  match find? files with
  | none => .ok none
  | some path => (ofFile files path).map some

end Config

end Conformance
