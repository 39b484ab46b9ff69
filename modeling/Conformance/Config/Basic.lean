import Conformance.Config.Setting
import Conformance.Log
import Conformance.Report

/-!
# Configuration

What can be configured, the defaults, and a configuration from a setting. Whatever is not given
has its default.
-/

namespace Conformance

/-- A configuration. -/
structure Config where
  catalog : Option String
  logLevel : LogLevel
  logFormat : LogFormat
  reportFormat : ReportFormat
deriving DecidableEq, Repr

instance : Inhabited Config := ⟨⟨none, default, default, default⟩⟩

namespace Config

variable (dialect : Dialect)

/-- A choice that has a default. -/
def choiceOr {α : Type} [Choice α] [Inhabited α] : Option Setting → Option α
  | none => some default
  | some setting => dialect.choice? setting

/-- The path of a catalog, or that there is none. -/
def catalogOf : Option Setting → Option (Option String)
  | none | some .nothing => some none
  | some setting => setting.text?.map some

/-- The level and the form of the log. -/
def loggingOf : Option Setting → Option (LogLevel × LogFormat)
  | none => some default
  | some setting => do
    match ← dialect.fields ["level", "format"] setting with
    | [level, format] => return (← choiceOr dialect level, ← choiceOr dialect format)
    | _ => none

/-- The form of the report. -/
def outputOf : Option Setting → Option ReportFormat
  | none => some default
  | some setting => do
    match ← dialect.fields ["format"] setting with
    | [format] => choiceOr dialect format
    | _ => none

/-- The configuration that a setting is. -/
def ofSetting? (setting : Setting) : Option Config := do
  match ← dialect.fields ["catalog", "logging", "output"] setting with
  | [catalog, logging, output] =>
    let catalog ← catalogOf catalog
    let (logLevel, logFormat) ← loggingOf dialect logging
    let reportFormat ← outputOf dialect output
    return { catalog, logLevel, logFormat, reportFormat }
  | _ => none

end Config

end Conformance
