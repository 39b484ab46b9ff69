import Conformance.CommandLine.Argument
import Conformance.File.Access
import Conformance.Log
import Conformance.Report

/-!
# Reading options

The words before the command and those after it are two scopes, each with the options that may
stand in it. A value stands behind an equals sign or is the next word; one that is the next word
is only looked at when the next option begins or the scope ends. That decides which of two faults
is reported: a word that is not known wins over a value that waits.

After two dashes nothing is an option.
-/

namespace Conformance

namespace CommandLine

/-- What was read in a scope: the options with their values, an option that waits for its value or
for a look at it, and whether two dashes have come. -/
structure Scope where
  given : List (Argument × String)
  waiting : Option (Argument × Option String)
  closed : Bool
deriving DecidableEq, Repr

/-- What a scope allows: options, and perhaps commands and the question for the version. -/
structure Grammar where
  arguments : List Argument
  isRoot : Bool

/-- What may stand before the command. -/
def rootGrammar : Grammar := ⟨Argument.common, true⟩

/-- What may stand after a command. -/
def Command.grammar (command : Command) : Grammar := ⟨command.arguments, false⟩

/-! ## Values -/

/-- Looks at a value: a path has to exist, and a choice has to have the name. -/
def check (files : Files) (argument : Argument) (value : String) : Except Refusal Unit :=
  let choice (known : Bool) : Except Refusal Unit :=
    if known then .ok () else .error (.valueUnknown argument value)
  match argument with
  | .logLevel => choice (Choice.named? value : Option LogLevel).isSome
  | .logFormat => choice (Choice.named? value : Option LogFormat).isSome
  | .report => choice (Choice.named? value : Option ReportFormat).isSome
  | .config | .xml | .xsd | .xslt | .catalog =>
    if files.exist value then .ok ()
    else .error (.valueRefused argument value ("File " ++ value ++ " does not exist."))

namespace Scope

/-- A scope of which nothing was read. -/
def empty : Scope := ⟨[], none, false⟩

/-- The value of an option. -/
def value? (scope : Scope) (argument : Argument) : Option String :=
  scope.given.lookup argument

/-- Whether an option waits for its value. -/
def awaits (scope : Scope) : Bool :=
  match scope.waiting with
  | some (_, none) => true
  | _ => false

/-- Enters an option with its value, which it may have only once. -/
def accept (files : Files) (scope : Scope) (argument : Argument) (value : String) :
    Except Refusal Scope :=
  if (scope.value? argument).isSome then .error (.repeated argument)
  else do
    check files argument value
    return { scope with given := scope.given ++ [(argument, value)] }

/-- Looks at the option that waits. -/
def settle (files : Files) (scope : Scope) : Except Refusal Scope :=
  match scope.waiting with
  | none => .ok scope
  | some (argument, none) => .error (.valueMissing argument)
  | some (argument, some value) => accept files { scope with waiting := none } argument value

end Scope

/-! ## Words -/

/-- A word, as far as its form tells. -/
inductive Word where
  /-- Two dashes alone. -/
  | dashes
  /-- A name after two dashes, and what stands behind an equals sign. -/
  | long (name : String) (value : Option String)
  /-- The letter after one dash. -/
  | short (letter : Char)
  | plain
deriving DecidableEq, Repr

/-- The form of a word. -/
def Word.of (word : String) : Word :=
  match word.toList with
  | ['-', '-'] => .dashes
  | '-' :: '-' :: rest =>
    let name := String.ofList (rest.takeWhile (· ≠ '='))
    match rest.dropWhile (· ≠ '=') with
    | [] => .long name none
    | _ :: value => .long name (some (String.ofList value))
  | '-' :: letter :: _ => .short letter
  | _ => .plain

/-- What a word does to a scope. -/
inductive Effect where
  | continued (scope : Scope)
  | command (word : String)

/-- Answers a question after a look at the option that waits. -/
def answer (files : Files) (scope : Scope) (refusal : Refusal) : Except Refusal Effect := do
  let _ ← scope.settle files
  .error refusal

/-- Reads the name of an option and the value attached to it. -/
def readLong (files : Files) (grammar : Grammar) (scope : Scope) (name : String)
    (value : Option String) : Except Refusal Effect :=
  match grammar.arguments.find? (·.name == name) with
  | some argument => do
    let scope ← scope.settle files
    match value with
    | some value => return .continued (← scope.accept files argument value)
    | none => return .continued { scope with waiting := some (argument, none) }
  | none =>
    if name == "help" || grammar.isRoot && name == "version" then
      match value with
      | some value => .error (.valueUnneeded ("--" ++ name) value)
      | none => answer files scope (if name == "help" then .help else .version)
    else .error (.unknownArgument ("--" ++ name))

/-- Reads a letter after one dash. -/
def readShort (files : Files) (grammar : Grammar) (scope : Scope) (letter : Char) :
    Except Refusal Effect :=
  if letter = 'h' then answer files scope .help
  else if grammar.isRoot ∧ letter = 'V' then answer files scope .version
  else .error (.unknownArgument (String.ofList ['-', letter]))

/-- Reads a word that is no option: the value that is waited for, or nothing that has a place
here. -/
def readPlain (grammar : Grammar) (scope : Scope) (word : String) : Except Refusal Effect :=
  match scope.closed, scope.waiting with
  | false, some (argument, none) =>
    .ok (.continued { scope with waiting := some (argument, some word) })
  | _, _ =>
    if grammar.isRoot && !(scope.closed && isCommandWord word) then .error (.unknownCommand word)
    else .error (.unknownArgument word)

/-- Reads one word. -/
def readWord (files : Files) (grammar : Grammar) (scope : Scope) (word : String) :
    Except Refusal Effect :=
  if scope.closed then readPlain grammar scope word
  else if grammar.isRoot && !scope.awaits && isCommandWord word then .ok (.command word)
  else
    match Word.of word with
    | .dashes => .ok (.continued { scope with closed := true })
    | .long name value => readLong files grammar scope name value
    | .short letter => readShort files grammar scope letter
    | .plain => readPlain grammar scope word

/-- Reads words up to a command: what was read, and the command with the words after it. -/
def readWords (files : Files) (grammar : Grammar) :
    Scope → List String → Except Refusal (Scope × Option (String × List String))
  | scope, [] => .ok (scope, none)
  | scope, word :: words =>
    match readWord files grammar scope word with
    | .error refusal => .error refusal
    | .ok (.continued scope) => readWords files grammar scope words
    | .ok (.command word) => .ok (scope, some (word, words))

end CommandLine

end Conformance
