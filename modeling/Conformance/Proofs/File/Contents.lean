import Conformance.File.Access
import Conformance.Proofs.Text.WellFormed

/-!
# What can be read at a path

Whether there is a file at a path is one question, and whether it can be read another: a file may be
barred, and what is no file may still be read.

* `Files.HasFile` : there is a regular file at a path (`isFile_iff`);
* `Files.HasText`, `Files.Unreadable` : the text that can be read at a path, or why there is none
  (`hasText_or_unreadable`).
-/

namespace Conformance

namespace Files

/-- There is a regular file at a path, which can be read or is barred. -/
inductive HasFile (files : Files) (path : RawPath) : Prop
  | readable {content : Octets} (h : files.lookup path = .ok (.file content))
  | barred {cause : FileError} (h : files.lookup path = .ok (.barred true cause))

/-- The text that can be read at a path. -/
def HasText (files : Files) (path : RawPath) (text : String) : Prop :=
  files.lookup path = .ok (.file (Utf8.encode text)) ∨
    files.lookup path = .ok (.device (Utf8.encode text))

/-- Why no text can be read at a path. -/
inductive Unreadable (files : Files) (path : RawPath) : FileError → Prop where
  | nothing {cause : FileError} (h : files.lookup path = .error cause) :
      Unreadable files path cause
  | directory (h : files.lookup path = .ok .directory) : Unreadable files path .isDirectory
  | barred {isFile : Bool} {cause : FileError} (h : files.lookup path = .ok (.barred isFile cause)) :
      Unreadable files path cause
  | notText {content : Octets}
      (h : files.lookup path = .ok (.file content) ∨ files.lookup path = .ok (.device content))
      (hnone : ∀ text, content ≠ Utf8.encode text) : Unreadable files path .notText

section

variable {files : Files} {path : RawPath}

/-- What can be read either is text or is not. -/
theorem readText_of_content {content : Octets}
    (h : files.lookup path = .ok (.file content) ∨ files.lookup path = .ok (.device content)) :
    files.readText path = (Utf8.decode? content).elim (.error .notText) .ok := by
  unfold readText read
  rcases h with h | h <;> simp only [h] <;> cases Utf8.decode? content <;> rfl

theorem HasText.readText {text : String} (h : files.HasText path text) :
    files.readText path = .ok text := by
  rw [readText_of_content h, Utf8.decode?_encode]
  rfl

theorem Unreadable.readText {cause : FileError} (h : files.Unreadable path cause) :
    files.readText path = .error cause := by
  cases h with
  | nothing h => rw [Files.readText, read, h]
  | directory h => rw [Files.readText, read, h]
  | barred h => rw [Files.readText, read, h]
  | notText h hnone =>
      rw [readText_of_content h]
      cases hdecode : Utf8.decode? _ with
      | none => rfl
      | some text => exact absurd (Utf8.decode?_eq_some_iff.1 hdecode) (hnone text)

theorem hasText_or_unreadable (files : Files) (path : RawPath) :
    (∃ text, files.HasText path text) ∨ ∃ cause, files.Unreadable path cause := by
  have hcontent : ∀ content : Octets, files.lookup path = .ok (.file content) ∨
      files.lookup path = .ok (.device content) →
        (∃ text, files.HasText path text) ∨ ∃ cause, files.Unreadable path cause := by
    intro content h
    by_cases htext : ∃ text, content = Utf8.encode text
    · obtain ⟨text, rfl⟩ := htext
      exact .inl ⟨text, h⟩
    · exact .inr ⟨_, .notText h fun text heq => htext ⟨text, heq⟩⟩
  rcases hlookup : files.lookup path with cause | ⟨content | _ | content | ⟨isFile, cause⟩⟩
  · exact .inr ⟨cause, .nothing hlookup⟩
  · exact hcontent content (.inl hlookup)
  · exact .inr ⟨_, .directory hlookup⟩
  · exact hcontent content (.inr hlookup)
  · exact .inr ⟨cause, .barred hlookup⟩

end

end Files

end Conformance
