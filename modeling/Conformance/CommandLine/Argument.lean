/-!
# Arguments of the command line

A command line names a command, and options that each take a value. Some options belong to a
command; the others may stand before the command as well as after it.
-/

namespace Conformance

namespace CommandLine

/-- What the program is to do. -/
inductive Command where
  | schema
  | schematron
deriving DecidableEq, Repr

namespace Command

/-- All commands. -/
def all : List Command := [.schema, .schematron]

/-- The word that stands for a command. -/
def word : Command → String
  | .schema => "schema"
  | .schematron => "schematron"

/-- The command of a word. -/
def ofWord? (word : String) : Option Command :=
  all.find? (·.word == word)

end Command

/-- The word that asks for help as a command does. -/
def helpWord : String := "help"

/-- Whether a word stands where a command may stand. -/
def isCommandWord (word : String) : Bool :=
  (Command.ofWord? word).isSome || word == helpWord

/-- The options. -/
inductive Argument where
  | config
  | logLevel
  | logFormat
  | report
  | xml
  | xsd
  | xslt
  | catalog
deriving DecidableEq, Repr

namespace Argument

/-- The name of an option, without its dashes. -/
def name : Argument → String
  | .config => "config"
  | .logLevel => "log-level"
  | .logFormat => "log-format"
  | .report => "format"
  | .xml => "xml"
  | .xsd => "xsd"
  | .xslt => "xslt"
  | .catalog => "catalog"

/-- The name that the value of an option goes by. -/
def placeholder : Argument → String
  | .config => "CONFIG"
  | .logLevel => "LOG_LEVEL"
  | .logFormat => "LOG_FORMAT"
  | .report => "OUTPUT_FORMAT"
  | .xml => "XML"
  | .xsd => "XSD"
  | .xslt => "XSLT"
  | .catalog => "CATALOG"

/-- An option as a message shows it. -/
def shown (argument : Argument) : String :=
  "--" ++ argument.name ++ " <" ++ argument.placeholder ++ ">"

/-- The options that may stand before the command. -/
def common : List Argument := [.config, .logLevel, .logFormat, .report]

end Argument

/-- The option that names the rules of a command. -/
def Command.rules : Command → Argument
  | .schema => .xsd
  | .schematron => .xslt

/-- The options that a command cannot do without, in the order in which they are missed. -/
def Command.required (command : Command) : List Argument :=
  [.xml, command.rules]

/-- The options that may stand after a command. -/
def Command.arguments (command : Command) : List Argument :=
  command.required ++ [.catalog] ++ Argument.common

/-- Why a command line is not carried out. -/
inductive Refusal where
  /-- Help was asked for. -/
  | help
  /-- The version was asked for. -/
  | version
  /-- There was nothing at all. -/
  | nothingGiven
  /-- There were options, but no command. -/
  | noCommand
  | unknownCommand (word : String)
  | unknownArgument (word : String)
  | required (arguments : List Argument)
  | repeated (argument : Argument)
  | valueMissing (argument : Argument)
  /-- A value was given to something that takes none. -/
  | valueUnneeded (word value : String)
  /-- A value is not one of the names that can be chosen. -/
  | valueUnknown (argument : Argument) (value : String)
  /-- A value does not hold. -/
  | valueRefused (argument : Argument) (value reason : String)
deriving DecidableEq, Repr

/-- Whether a command line was turned down, and not just asked for help or the version. -/
def Refusal.isMisuse : Refusal → Bool
  | .help | .version => false
  | _ => true

end CommandLine

end Conformance
