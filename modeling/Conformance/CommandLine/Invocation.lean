import Conformance.CommandLine.Scope
import Conformance.Config.Layers

/-!
# Invocations

A command line that can be carried out: the command, the document, the rules, and what it says of
the configuration. What is said after the command wins over what is said before it.

The faults before the command are reported after those behind it, as far as they were still
waiting when the command came.
-/

namespace Conformance

namespace CommandLine

/-- A command line that can be carried out. -/
structure Invocation where
  command : Command
  xml : String
  rules : String
  config : Option String
  overrides : Overrides
deriving DecidableEq, Repr

/-- What a question for help about some words comes to. Only commands have help of their own, and
they have no commands below them. -/
def helpFor : List String → Refusal
  | [] => .help
  | word :: words =>
    if isCommandWord word then words.head?.elim .help .unknownCommand else .unknownCommand word

/-- The value of an option, after the command or before it. -/
def valueOf? (root scope : Scope) (argument : Argument) : Option String :=
  scope.value? argument <|> root.value? argument

/-- What is said of the configuration before and after a command. -/
def overrides (root scope : Scope) : Overrides where
  catalog := scope.value? .catalog
  logLevel := (valueOf? root scope .logLevel).bind Choice.named?
  logFormat := (valueOf? root scope .logFormat).bind Choice.named?
  reportFormat := (valueOf? root scope .report).bind Choice.named?

/-- The required options that are missing after a command. -/
def missing (command : Command) (scope : Scope) : List Argument :=
  command.required.filter fun argument => (scope.value? argument).isNone

/-- Reads the words of a command line. -/
def parse (files : Files) (words : List String) : Except Refusal Invocation := do
  let (root, command) ← readWords files rootGrammar .empty words
  match command with
  | none =>
    let root ← root.settle files
    .error (if root.given.isEmpty then .nothingGiven else .noCommand)
  | some (word, words) =>
    match Command.ofWord? word with
    | none => .error (helpFor words)
    | some command =>
      let (scope, _) ← readWords files command.grammar .empty words
      let scope ← scope.settle files
      match scope.value? .xml, scope.value? command.rules with
      | some xml, some rules =>
        let root ← root.settle files
        let config := valueOf? root scope .config
        return { command, xml, rules, config, overrides := overrides root scope }
      | _, _ => .error (.required (missing command scope))

end CommandLine

end Conformance
