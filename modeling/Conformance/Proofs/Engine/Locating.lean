import Conformance.Proofs.Engine.Collecting
import Conformance.Proofs.Engine.Recording
import Conformance.Proofs.Text.Cutting

/-!
# Where an error was found

A violation tells its place as one text, `file:line:column`. The file may have colons and digits of
its own, as URLs do, and so may the system id that stands in for it. The numbers have no colon, so
the last two colons of the text are the ones that were put in, and the place can be read back.

* `Position`, `Position.text`, `Position.ofText?` : a place, how it is written, and how it is read:
  cut at the last two colons;
* `Notice.StandsAt` : the place of a notice in the document of a system id;
* `Notice.locations_decode` : a collector holds the places of the errors, and each can be read back.
-/

namespace Conformance

/-! ## Places -/

/-- A place in a file. -/
structure Position where
  file : String
  line : Int
  column : Int
deriving DecidableEq, Repr

namespace Position

/-- How a place is written. -/
def text (position : Position) : String :=
  position.file ++ ":" ++ toString position.line ++ ":" ++ toString position.column

/-- The number that digits stand for. -/
def natural? (digits : List Char) : Option Nat :=
  if !digits.isEmpty && digits.all Char.isDigit then some (Nat.ofDigitChars 10 digits 0) else none

/-- The number that digits stand for, with or without a minus sign before them. -/
def integer? : List Char → Option Int
  | '-' :: digits => (natural? digits).map fun n => -n
  | digits => (natural? digits).map fun n => n

/-- Cuts a text at its last two colons, and reads what follows them as a line and a column. -/
def ofText? (text : String) : Option Position := do
  let (rest, column) ← cutLast? ':' text.toList
  let (file, line) ← cutLast? ':' rest
  return ⟨String.ofList file, ← integer? line, ← integer? column⟩

/-! ### Numbers as they are written -/

theorem isDigit_of_mem_repr {n : Nat} {c : Char} (h : c ∈ n.repr.toList) : c.isDigit = true := by
  rw [Nat.toList_repr] at h
  exact Nat.isDigit_of_mem_toDigits (by decide) (by decide) h

theorem natural?_repr (n : Nat) : natural? n.repr.toList = some n := by
  have hsome : n.repr.toList.isEmpty = false := by
    rw [Nat.toList_repr, List.isEmpty_eq_false_iff]
    exact Nat.toDigits_ne_nil
  have hall : n.repr.toList.all Char.isDigit = true :=
    List.all_eq_true.2 fun _ h => isDigit_of_mem_repr h
  rw [natural?, hsome, hall, Nat.toList_repr, Nat.ofDigitChars_ten_toDigits]
  rfl

theorem integer?_toString (n : Int) : integer? (toString n).toList = some n := by
  rw [Int.toString_eq_repr]
  cases n with
  | ofNat n =>
      have hrepr : (Int.ofNat n).repr.toList = n.repr.toList := rfl
      rw [hrepr]
      unfold integer?
      split
      · next digits h =>
          have hsign : '-' ∈ n.repr.toList := by rw [h]; exact List.mem_cons_self
          exact absurd (isDigit_of_mem_repr hsign) (by decide)
      · rw [natural?_repr]
        rfl
  | negSucc n =>
      have hrepr : (Int.negSucc n).repr.toList = '-' :: (n + 1).repr.toList := by
        simp [Int.repr]
      rw [hrepr, integer?, natural?_repr]
      rfl

/-- A number is written with digits and perhaps a sign. -/
theorem colon_notMem_toString (n : Int) : ':' ∉ (toString n).toList := by
  have hdigits : ∀ n : Nat, ':' ∉ n.repr.toList := fun n h =>
    absurd (isDigit_of_mem_repr h) (by decide)
  rw [Int.toString_eq_repr, Int.repr_eq_if]
  split
  · exact hdigits _
  · rw [String.toList_append, List.mem_append]
    rintro (hsign | hmem)
    · exact absurd hsign (by decide)
    · exact hdigits _ hmem

/-! ### Places as they are written -/

/-- Whatever colons the file has, it is what stands before the last two of the whole text. -/
theorem ofText?_text (position : Position) : ofText? position.text = some position := by
  have hcolumn : cutLast? ':' position.text.toList = some
      ((position.file ++ ":" ++ toString position.line).toList, (toString position.column).toList) :=
    cutLast?_eq_some_iff.2 ⟨by simp [text], colon_notMem_toString _⟩
  have hline : cutLast? ':' (position.file ++ ":" ++ toString position.line).toList = some
      (position.file.toList, (toString position.line).toList) :=
    cutLast?_eq_some_iff.2 ⟨by simp, colon_notMem_toString _⟩
  simp only [ofText?, hcolumn, hline, Option.bind_eq_bind, Option.bind_some, String.ofList_toList,
    integer?_toString]
  rfl

theorem text_injective : Function.Injective text := by
  intro position other h
  have hread := congrArg ofText? h
  rwa [ofText?_text, ofText?_text, Option.some_inj] at hread

end Position

/-! ## Places of errors -/

namespace Notice

/-- The place of a notice in the document of a system id. -/
def position (notice : Notice) (systemId : String) : Position :=
  ⟨notice.fileOr systemId, notice.line.toInt, notice.column.toInt⟩

/-- The violation that an error amounts to in the document of a system id. -/
def violation (notice : Notice) (systemId : String) : Violation :=
  ⟨notice.location systemId, notice.text⟩

/-- Where a notice is in the document of a system id, which stands in for a file that is missing or
no text. -/
structure StandsAt (notice : Notice) (systemId : String) (position : Position) : Prop where
  file : RawText.Holds notice.file position.file ∨
    (∀ text, ¬ RawText.Holds notice.file text) ∧ position.file = systemId
  line : position.line = notice.line.toInt
  column : position.column = notice.column.toInt

theorem location_eq (notice : Notice) (systemId : String) :
    notice.location systemId = (notice.position systemId).text := rfl

theorem position_eq_iff {notice : Notice} {systemId : String} {position : Position} :
    notice.position systemId = position ↔ notice.StandsAt systemId position := by
  obtain ⟨file, line, column⟩ := position
  rw [Notice.position, Position.mk.injEq, fileOr_eq_iff]
  constructor
  · rintro ⟨hfile, rfl, rfl⟩
    exact ⟨hfile, rfl, rfl⟩
  · rintro ⟨hfile, rfl, rfl⟩
    exact ⟨hfile, rfl, rfl⟩

end Notice

namespace Thread

variable {E : Engine}

/-- A collector takes the notices that are raised at it, one after another. -/
theorem getElem?_acceptAll_raised {thread : Thread E} {collector : Nat} {state : Collector}
    (h : thread.collectors[collector]? = some state) (notices : List Notice) :
    (thread.acceptAll collector (notices.map .raised)).collectors[collector]? =
      some (notices.foldl Collector.receive state) := by
  induction notices generalizing thread state with
  | nil => exact h
  | cons notice notices ih =>
      have hstep : (thread.deliver collector notice).collectors[collector]? =
          some (state.receive notice) := by
        rw [deliver_collectors, List.getElem?_modify_eq, h]
        rfl
      exact ih hstep

end Thread

namespace Notice

variable {E : Engine}

/-- The collector of a document holds a violation for each error that the engine has raised at it, in
order. Of whatever document the error is, the location of its violation, cut at its last two colons,
gives back the file, the line and the column that the engine has named, or the system id if that was
no file; so two errors have one location exactly if they agree in all three. -/
theorem locations_decode (thread : Thread E) (systemId : String) (notices : List Notice) :
    let collector := (thread.collect systemId).1
    let after := (thread.collect systemId).2.acceptAll collector (notices.map .raised)
    (after.collected collector).violations =
        (notices.filter fun notice => notice.level = 2 ∨ notice.level = 3).map
          (·.violation systemId) ∧
      (∀ (notice : Notice) (systemId : String) (position : Position),
        Position.ofText? (notice.violation systemId).location = some position ↔
          notice.StandsAt systemId position) ∧
      ∀ (notice other : Notice) (systemId otherId : String),
        (notice.violation systemId).location = (other.violation otherId).location ↔
          ∃ position, notice.StandsAt systemId position ∧ other.StandsAt otherId position := by
  intro collector after
  refine ⟨?_, fun notice systemId position => ?_, fun notice other systemId otherId => ?_⟩
  · have hnew : (thread.collect systemId).2.collectors[collector]? =
        some (Collector.new systemId) := by
      simp [collector, Thread.collect]
    rw [Thread.collected_of_getElem? (Thread.getElem?_acceptAll_raised hnew notices),
      Collector.foldl_receive]
    rfl
  · rw [violation, location_eq, Position.ofText?_text, Option.some_inj, position_eq_iff]
  · simp only [violation, location_eq, Position.text_injective.eq_iff, ← position_eq_iff]
    constructor
    · exact fun h => ⟨_, h, rfl⟩
    · rintro ⟨position, h, hother⟩
      exact h.trans hother.symm

/-- A URL with colons and digits of its own. -/
example : Position.ofText? "http://host:80/a:1.xsd:3:-1" = some ⟨"http://host:80/a:1.xsd", 3, -1⟩ :=
  rfl

end Notice

end Conformance
