import Conformance.Engine.Recorded
import Conformance.Program

/-!
# The command

`main` runs the program on the files, the environment and the streams of the process. The engine
answers from a record: the file that the variable `XML_SCHEMER_RECORD` names, or a record of
nothing.

Only the paths that the run can come to are looked at, once, before it begins: those on the
command line, those where a configuration may be, and those that the environment and the
configuration name. All of them are texts.
-/

namespace Conformance

namespace Process

/-- The cause of a failed access. The number of a cause comes with either sign. -/
def cause (error : IO.Error) : FileError :=
  match error with
  | .noFileOrDirectory .. => .notFound
  | .inappropriateType _ code _ =>
    if code = 21 ∨ code = -21 then .isDirectory else .notDirectory
  | .invalidArgument _ code _ =>
    if code = 36 ∨ code = -36 then .nameTooLong else .other (toString error)
  | .permissionDenied _ code _ =>
    if code = 13 ∨ code = -13 then .denied else .other (toString error)
  | error => .other (toString error)

/-- Whether there is a file at a path of the process, if there is anything. -/
def isFile? (path : String) : IO (Option Bool) := do
  try
    let found ← (← IO.FS.realPath path).metadata
    return some (found.type matches .file)
  catch _ => return none

/-- What stands at a path of the process. A file that cannot be read is there nevertheless. -/
def lookup (path : String) : IO (Except FileError FileEntry) := do
  if hasNul path then return .error .nulInPath
  let isFile? ← isFile? path
  try
    let content := (← IO.FS.readBinFile path).toList
    return .ok (if isFile?.getD false then .file content else .device content)
  catch error =>
    match cause error, isFile? with
    | .isDirectory, _ => return .ok .directory
    | other, some isFile => return .ok (.barred isFile other)
    | other, none => return .error other

/-- The paths that may stand in a word of the command line. -/
def pathsIn (word : String) : List String :=
  [word, String.ofList ((word.toList.dropWhile (· ≠ '=')).drop 1)]

/-- The files at some paths, and nothing elsewhere. -/
def files (userDirectory : Option RawPath) (paths : List String) : IO Files := do
  let found ← paths.mapM fun path => return (RawPath.ofString path, ← lookup path)
  return ⟨fun path => (found.lookup path).getD (.error .notFound), userDirectory⟩

/-- The variables that the program looks at. -/
def environment : IO Environment := do
  let names := [Environment.configVariable, Environment.homeVariable, Config.catalogVariable,
    Config.logLevelVariable, Config.logFormatVariable, Config.reportFormatVariable]
  let values ← names.mapM fun name => return (name, ← IO.getEnv name)
  return fun name => (values.lookup name).join

/-- The record that the engine of the process answers from. -/
def record : IO Recorded.Record := do
  match ← IO.getEnv "XML_SCHEMER_RECORD" with
  | none => return .empty
  | some path =>
    let value := Json.ofOctets? (← IO.FS.readBinFile path).toList
    return value.elim .empty Recorded.Record.ofJson

/-- The catalog that the run will use, as far as it gets that far. -/
def catalog? (files : Files) (environment : Environment) (words : List String) : Option String :=
  match CommandLine.parse files words with
  | .error _ => none
  | .ok invocation =>
    match Config.fileLayer files invocation.config with
    | .error _ => none
    | .ok layer =>
      let config := Config.applyEnvironment environment (layer.elim default (Config.merge default))
      config.toOption.bind fun config => (invocation.overrides.apply config).catalog

end Process

end Conformance

open Conformance in
/-- Runs the program. -/
def main (words : List String) : IO UInt32 := do
  let environment ← Process.environment
  let userDirectory := environment.userDirectory
  let nowhere : Files := ⟨fun _ => .error .notFound, userDirectory⟩
  let paths := words.flatMap Process.pathsIn ++ (Config.candidates nowhere).filterMap RawPath.text?
  let known ← Process.files userDirectory paths
  let files ← Process.files userDirectory
    (paths ++ (Process.catalog? known environment words).toList)
  let record ← Process.record
  let outcome := Program.run record.engine files environment .unlimited words
  match outcome with
  | .refused refusal =>
    if refusal.isMisuse then IO.eprintln "xml-schemer: the command line cannot be carried out"
  | .ran result =>
    IO.print result.out
    IO.eprint (String.join (result.err.map Program.Emission.written))
  return outcome.status
