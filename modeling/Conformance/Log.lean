import Conformance.Json.Basic
import Conformance.Text.Choice

/-!
# The log

A record has a level, a message and named fields. It is written as a line of text or as a JSON
object; either way a record above the chosen level is left out. Of the five levels the records of a
run have the first three; what is only for debugging or tracing is not recorded.
-/

namespace Conformance

/-! ## Levels and forms -/

/-- How much a record matters, the most important first. -/
inductive LogLevel where
  | error
  | warn
  | info
  | debug
  | trace
deriving DecidableEq, Repr

instance : Inhabited LogLevel := ⟨.warn⟩

instance : Choice LogLevel where
  all := [.error, .warn, .info, .debug, .trace]
  name
    | .error => "error"
    | .warn => "warn"
    | .info => "info"
    | .debug => "debug"
    | .trace => "trace"

namespace LogLevel

/-- The place of a level in the order of importance. -/
def rank : LogLevel → Nat
  | .error => 0
  | .warn => 1
  | .info => 2
  | .debug => 3
  | .trace => 4

/-- Whether a log of this level takes records of another. -/
def admits (limit level : LogLevel) : Bool :=
  level.rank ≤ limit.rank

/-- The level as it stands in a record. -/
def label : LogLevel → String
  | .error => "ERROR"
  | .warn => "WARN"
  | .info => "INFO"
  | .debug => "DEBUG"
  | .trace => "TRACE"

end LogLevel

/-- The form of a log. -/
inductive LogFormat where
  | text
  | json
deriving DecidableEq, Repr

instance : Inhabited LogFormat := ⟨.text⟩

instance : Choice LogFormat where
  all := [.text, .json]
  name
    | .text => "text"
    | .json => "json"

/-! ## Records -/

/-- The value of a field. -/
inductive LogValue where
  | text (value : String)
  | count (value : Nat)
deriving DecidableEq, Repr

/-- The value as text. -/
def LogValue.shown : LogValue → String
  | .text value => value
  | .count value => toString value

/-- The value as JSON. -/
def LogValue.toJson : LogValue → Json
  | .text value => .ofString value
  | .count value => .ofInt value

/-- One entry of the log. -/
structure LogRecord where
  level : LogLevel
  message : String
  fields : List (String × LogValue)
deriving DecidableEq, Repr

namespace LogRecord

/-- A character of a message in a line of text. Characters that a terminal acts on are spelled
out, except tabs and the ends of lines. -/
def shownChar (c : Char) : List Char :=
  let n := c.toNat
  if n = 0x1B ∨ n = 0x07 ∨ n = 0x08 ∨ n = 0x0C ∨ n = 0x7F then
    ['\\', 'x', Hex.digit (n / 16), Hex.digit (n % 16)]
  else if 0x80 ≤ n ∧ n < 0xA0 then
    ['\\', 'u', '\x7b', Hex.digit (n / 16), Hex.digit (n % 16), '\x7d']
  else [c]

/-- The record as a line of text, without its end. -/
def line (record : LogRecord) : String :=
  String.join
    (record.level.label :: " " :: String.ofList (record.message.toList.flatMap shownChar) ::
      record.fields.map fun (name, value) => " " ++ name ++ "=" ++ value.shown)

/-- The record as an object. -/
def toJson (record : LogRecord) : Json :=
  .ofMembers
    [("level", .ofString record.level.label),
      ("fields", .ofMembers
        (("message", .ofString record.message) ::
          record.fields.map fun (name, value) => (name, value.toJson)))]

end LogRecord

end Conformance
