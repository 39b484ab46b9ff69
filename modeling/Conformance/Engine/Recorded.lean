import Conformance.Engine.Basic
import Conformance.Engine.Query
import Conformance.Json.Reader
import Conformance.Json.Strict

/-!
# Recorded engines

An engine that answers from a record. The record holds catalogs and entities by name and the URIs
that references resolve to. A document is a JSON object that says what an engine does with it:
whether it parses, compiles and validates, which notices are reported on the way, which entities
are asked for and what the queries give. What is not such an object is a document that is not
well formed.
-/

namespace Conformance

namespace Recorded

/-! ## Parts of a record -/

/-- The octets that digits to base sixteen stand for, two each. -/
def octetsOfHex : List Char → Octets
  | high :: low :: rest =>
    ((Hex.number? [high, low]).getD 0).toUInt8 :: octetsOfHex rest
  | _ => []

/-- The raw text that a value stands for: a text, an object that gives octets to base sixteen,
or nothing. -/
def rawText? (value : Json) : Option RawText :=
  match value with
  | .string literal => literal.text?.map .ofString
  | _ => (value.get "hex").text?.map fun digits => ⟨octetsOfHex digits.toList⟩

/-- Whether an integer fits into 64 bits with a sign. -/
def fits64 (value : Int) : Bool :=
  Int64.minValue.toInt ≤ value ∧ value ≤ Int64.maxValue.toInt

/-- The low 32 bits of an integer of at most 64, zero if none is given. -/
def int32 (value : Json) : Int32 :=
  Int32.ofInt ((value.int?.filter fits64).getD 0)

/-- A notice. -/
def notice (value : Json) : Notice where
  level := int32 (value.get "level")
  file := rawText? (value.get "file")
  line := int32 (value.get "line")
  column := int32 (value.get "column")
  message := rawText? (value.get "message")

/-- A load of an entity: its URL and its public id. -/
def load (value : Json) : Option RawText × Option RawText :=
  (rawText? (value.get "url"), rawText? (value.get "public_id"))

/-! ## Scripts -/

/-- What an engine does with one document. -/
structure Script where
  parts : Json

namespace Script

/-- The script of a document under a URL that is not well formed. -/
def malformed (url : Option String) : Script :=
  let notice := Json.ofMembers
    [("level", .ofInt 3), ("file", .ofText? url), ("line", .ofInt 1), ("column", .ofInt 1),
      ("message", .ofString "not well-formed\n")]
  ⟨.ofMembers
    [("parse", .bool false), ("events", .array [notice]), ("stream_events", .array [notice]),
      ("code", .ofInt (-1))]⟩

/-- The script that a value stands for under a URL. -/
def ofJson (value : Json) (url : Option String) : Script :=
  match value with
  | .object _ => ⟨value⟩
  | _ => malformed url

/-- The script that octets stand for under a URL. -/
def ofOctets (octets : Octets) (url : Option String) : Script :=
  match Json.ofOctets? octets with
  | some value => if value.isStrict Json.depthLimit then ofJson value url else malformed url
  | none => malformed url

/-- Whether something is done, as it is unless the script denies it. -/
def does (script : Script) (name : String) : Bool :=
  (script.parts.get name).bool?.getD true

/-- Whether a call fails. -/
def fails (script : Script) (call : String) : Bool :=
  (script.parts.get "fail").items.any fun item => item.text? == some call

/-- The notices of one kind. -/
def notices (script : Script) (name : String) : List Notice :=
  (script.parts.get name).items.map notice

/-- The loads of one kind. -/
def loads (script : Script) (name : String) : List (Option RawText × Option RawText) :=
  (script.parts.get name).items.map load

/-- The document, if it parses, after the notices of parsing it. -/
def parse (script : Script) : Run Script (Option Script) :=
  .reporting ((script.notices "events").map (Channel.thread, ·))
    (if script.does "parse" then some script else none)

/-- The compiled document, if it compiles, after its loads and notices. -/
def compile (script : Script) (channel : Channel) : Run Script (Option Script) :=
  .loading (script.loads "loads") <|
    .reporting ((script.notices "compile_events").map (channel, ·))
      (if script.does "compile" then some script else none)

/-- The return code of a pass over a document, after its notices: fatal ones are those of the
parser, the others those of the validation. -/
def stream (script : Script) : Run Script Int32 :=
  .reporting
    ((script.notices "stream_events").map fun notice =>
      (if notice.level = 3 then Channel.thread else Channel.context, notice))
    (int32 (script.parts.get "code"))

/-- The document that a transform makes of an input, after the loads and notices of the
transform. -/
def apply (transform input : Script) : Run Script (Option Script) :=
  .loading (transform.loads "apply_loads") <|
    .reporting ((transform.notices "apply_events").map (Channel.thread, ·))
      (match input.parts.get "result" with
      | .null => none
      | result => some ⟨result⟩)

/-! ## Queries -/

/-- The nodes that an expression selects. -/
def select (script : Script) (expression : String) : Option (List Json) :=
  if script.fails expression then none
  else if expression = Query.composition then some (script.parts.get "references").items
  else if expression = Query.failedAsserts then some (script.parts.get "svrl").items
  else some []

/-- The part of a script that an expression gives. On a reference the kind, the location and the
namespace are known, on a failed assertion the location and the text. -/
def part (expression : String) : String :=
  if expression = Query.targetNamespace then "target_namespace"
  else if expression = Query.schemaLocation then "location"
  else if expression = Query.importedNamespace then "namespace"
  else if expression = Query.localName then "kind"
  else if expression = Query.assertLocation then "location"
  else if expression = Query.assertText then "text"
  else ""

/-- The text that an expression gives. -/
def evaluate (script : Script) (node : Option Json) (expression : String) :
    Option (Option RawText) :=
  if script.fails expression then none
  else some (rawText? ((node.getD script.parts).get (part expression)))

end Script

/-! ## Records -/

/-- Catalogs by path, entities by URL, and what references resolve to against a base. -/
structure Record where
  catalogs : List (String × Json)
  entities : List (String × Script)
  uris : List ((String × String) × Option RawText)

namespace Record

/-- A record of nothing. -/
def empty : Record := ⟨[], [], []⟩

/-- The reference, the base and the result of one resolution. -/
def uri? (value : Json) : Option ((String × String) × Option RawText) :=
  match value.items with
  | [reference, base, result] => do
    return ((← reference.text?, ← base.text?), rawText? result)
  | _ => none

/-- The entries of an object, of those with one name the last. Members that are `null` count as
absent. -/
def present (value : Json) : List (String × Json) :=
  value.entries.reverse.filter fun (_, value) => match value with
    | .null => false
    | _ => true

/-- The record that a value stands for. -/
def ofJson (value : Json) : Record where
  catalogs := present (value.get "catalogs")
  entities := (present (value.get "entities")).map fun (url, value) =>
    (url, Script.ofJson value (some url))
  uris := (value.get "build_uri").items.filterMap uri?

/-- The name of a table in a recorded catalog. -/
def tableName : Catalog.Table → String
  | .publicIds => "public"
  | .systemIds => "system"
  | .uris => "uri"

/-- The entity of a URL. -/
def entity? (record : Record) (url : Option RawText) : Option Script :=
  url.bind fun url => record.entities.lookup url.lossy

theorem mem_keys_of_lookup {α β : Type} [BEq α] [LawfulBEq α] {key : α} :
    ∀ {entries : List (α × β)}, (entries.lookup key).isSome → key ∈ entries.map (·.1)
  | [], h => by simp at h
  | (other, value) :: entries, h => by
    rw [List.lookup_cons] at h
    by_cases e : key == other
    · simp [eq_of_beq e]
    · simp only [e] at h
      exact List.mem_cons_of_mem _ (mem_keys_of_lookup h)

/-- The engine that answers from a record. -/
def engine (record : Record) : Engine where
  LoadedCatalog := Json
  Entity := Script
  Document := Script
  Node := Json
  Schema := Script
  Stylesheet := Script
  loadCatalog path := record.catalogs.lookup path
  answer catalog lookup := rawText? ((catalog.get (tableName lookup.table)).get lookup.key)
  buildUri reference base := (record.uris.lookup (reference, base)).join
  openEntity url _ := record.entity? url
  parse octets url := (Script.ofOctets octets (some url)).parse
  parseEntity entity _ := entity.parse
  opensXPath document := !document.fails "xpath_context"
  registers document _ _ := !document.fails "register_namespace"
  select := Script.select
  evaluate := Script.evaluate
  compileSchema document :=
    if document.fails "parser_ctxt" then none else some (document.compile .context)
  canValidate schema := !schema.fails "valid_ctxt"
  canBuffer octets := !(Script.ofOctets octets none).fails "input_buffer"
  stream _ octets _ := (Script.ofOctets octets none).stream
  compileStylesheet document := document.compile .thread
  apply := Script.apply
  library := record.entities.map (·.1)
  mem_library := by
    intro url hn h
    apply mem_keys_of_lookup
    simpa [entity?, RawText.lossy_ofString hn] using Option.isSome_of_isSome_bind h

end Record

end Recorded

end Conformance
