import Conformance.Proofs.Schematron.Stages
import Conformance.Report

/-!
# Reports read line by line

A report for people is meant to have one line for each violation. Locations and messages are put
into it as they are, though, and those of a transform may have any character but NUL; of the
messages of an engine only the ends are cleared of blanks. What a reader of lines gets is said here
for all violations, and when it is what was meant.

* `linesOf_text` : the lines of a report, each violation cut at the line feeds that it has;
* `length_linesOf_text` : their number;
* `linesOf_text_eq_iff` : one line for each violation, exactly if no text has a line feed;
* `validate_telling` : no other lists of violations can be ruled out, since a transform can give
  any that has no NUL.
-/

namespace Conformance

/-- The lines of a text, each without the line feed that ends it. What comes after the last line
feed is no line. -/
def linesOf (text : String) : List String :=
  ((text.toList.splitOn '\n').map String.ofList).dropLast

theorem length_splitOn (c : Char) (text : List Char) :
    (text.splitOn c).length = text.count c + 1 := by
  rw [List.splitOn]
  induction text with
  | nil => rfl
  | cons d text ih =>
      rw [List.splitOnP_cons_eq_if_modifyHead, List.count_cons]
      split
      · rw [List.length_cons, ih]
      · rw [List.length_modifyHead, ih, Nat.add_zero]

namespace Violation

/-- The pieces into which line feeds cut a violation. -/
def pieces (violation : Violation) : List String :=
  (violation.line.toList.splitOn '\n').map String.ofList

/-- The line feeds in the texts of violations. -/
def breaks (violations : List Violation) : Nat :=
  (violations.flatMap fun violation =>
    violation.location.toList ++ violation.message.toList).count '\n'

theorem count_line (violation : Violation) :
    violation.line.toList.count '\n' =
      (violation.location.toList ++ violation.message.toList).count '\n' := by
  have hlocation : "location: ".toList.count '\n' = 0 := by decide
  have hmessage : " message: ".toList.count '\n' = 0 := by decide
  simp only [line, String.toList_append, List.count_append]
  omega

theorem breaks_cons (violation : Violation) (violations : List Violation) :
    breaks (violation :: violations) = violation.line.toList.count '\n' + breaks violations := by
  rw [breaks, List.flatMap_cons, List.count_append, count_line, breaks]

theorem breaks_eq_zero_iff {violations : List Violation} :
    breaks violations = 0 ↔ ∀ violation ∈ violations,
      '\n' ∉ violation.location.toList ∧ '\n' ∉ violation.message.toList := by
  rw [breaks, List.count_eq_zero, List.mem_flatMap]
  simp only [List.mem_append, not_exists, not_and, not_or]

theorem length_pieces (violation : Violation) :
    violation.pieces.length = violation.line.toList.count '\n' + 1 := by
  rw [pieces, List.length_map, length_splitOn]

theorem pieces_of_count_eq_zero {violation : Violation}
    (h : violation.line.toList.count '\n' = 0) : violation.pieces = [violation.line] := by
  rw [pieces, List.splitOn_eq_singleton (List.count_eq_zero.1 h), List.map_singleton,
    String.ofList_toList]

end Violation

namespace ReportFormat

/-- The report ends with a line feed, so that cutting it there leaves nothing at its end. -/
theorem splitOn_text (violations : List Violation) :
    (human.text violations).toList.splitOn '\n' =
      (violations.flatMap fun violation => violation.line.toList.splitOn '\n') ++ [[]] := by
  rw [text, String.toList_join]
  induction violations with
  | nil => rfl
  | cons violation violations ih =>
      have hcut (rest : List Char) : (violation.line.toList ++ '\n' :: rest).splitOn '\n' =
          violation.line.toList.splitOn '\n' ++ rest.splitOn '\n' :=
        List.splitOnP_append_cons _ _ (beq_self_eq_true '\n')
      simp only [List.map_cons, List.flatMap_cons, String.toList_append, List.append_assoc]
      rw [show "\n".toList = ['\n'] from rfl, List.singleton_append, hcut, ih]

theorem linesOf_text (violations : List Violation) :
    linesOf (human.text violations) = violations.flatMap Violation.pieces := by
  rw [linesOf, splitOn_text, List.map_append, List.map_singleton, List.dropLast_concat,
    List.map_flatMap]
  rfl

theorem length_linesOf_text (violations : List Violation) :
    (linesOf (human.text violations)).length = violations.length + Violation.breaks violations := by
  rw [linesOf_text]
  induction violations with
  | nil => rfl
  | cons violation violations ih =>
      rw [List.flatMap_cons, List.length_append, ih, Violation.length_pieces, List.length_cons,
        Violation.breaks_cons]
      omega

/-- A report has as many lines as violations, and each line is its violation, exactly if no location
and no message has a line feed. Each line feed in them is one line more. -/
theorem linesOf_text_eq_iff (violations : List Violation) :
    (linesOf (human.text violations)).length =
        violations.length + Violation.breaks violations ∧
      (linesOf (human.text violations) = violations.map Violation.line ↔
        ∀ violation ∈ violations,
          '\n' ∉ violation.location.toList ∧ '\n' ∉ violation.message.toList) := by
  refine ⟨length_linesOf_text violations, ?_⟩
  rw [← Violation.breaks_eq_zero_iff]
  constructor
  · intro hlines
    -- A line feed in a text already shows in the number of lines.
    have hlength := congrArg List.length hlines
    rw [length_linesOf_text, List.length_map] at hlength
    omega
  · intro hnone
    rw [linesOf_text]
    induction violations with
    | nil => rfl
    | cons violation violations ih =>
        rw [Violation.breaks_cons, Nat.add_eq_zero_iff] at hnone
        rw [List.flatMap_cons, List.map_cons, Violation.pieces_of_count_eq_zero hnone.1,
          ih hnone.2]
        rfl

end ReportFormat

/-! ## Lists that validators give -/

namespace Schematron.Validator

/-- An engine whose transforms find that one assertion failed for each of these violations. -/
def telling (violations : List Violation) : Engine :=
  { asserting with
    Node := Violation
    select := fun _ _ => some violations
    evaluate := fun _ violation? expression => some <| violation?.map fun violation =>
      .ofString (if expression = Query.assertLocation then violation.location
        else violation.message) }

theorem validate_telling {violations : List Violation}
    (h : ∀ violation ∈ violations,
      hasNul violation.location = false ∧ hasNul violation.message = false) :
    ((validate (E := telling violations) ⟨.memory [] "t.xsl", none⟩ Schema.Validator.noFiles
      (.memory [] "doc.xml")).outcome.run Thread.fresh).1 = .ok violations := by
  refine (Attempt.Does.run_fst_iff Ends.does (exists_ends _ _ _ _) rfl).2 ?_
  refine exists_ends_ok_iff.2 (.intro rfl .without rfl rfl rfl rfl rfl rfl rfl ?_)
  refine List.forall₂_same.2 fun violation hviolation => ?_
  obtain ⟨hlocation, hmessage⟩ := h violation hviolation
  exact ⟨congrArg some (RawText.lossy_ofString hlocation),
    congrArg some (RawText.lossy_ofString hmessage)⟩

end Schematron.Validator

namespace ReportFormat

/-- A validator of either kind can give one violation that is two lines of a report: the end of a
message is cleared of line feeds, its middle is not, and the text of a failed assertion is taken as
it is. -/
theorem linesOf_text_of_break :
    ((Schematron.Validator.validate (E := Schematron.Validator.telling [⟨"/a", "bad\nrole"⟩])
        ⟨.memory [] "t.xsl", none⟩ Schema.Validator.noFiles
        (.memory [] "doc.xml")).outcome.run Thread.fresh).1 = .ok [⟨"/a", "bad\nrole"⟩] ∧
      linesOf (human.text [⟨"/a", "bad\nrole"⟩]) = ["location: /a message: bad", "role"] ∧
      ((Schema.Validator.validate (E := Schema.Validator.uniform (.reporting
          [(.context, ⟨2, none, 1, 1, some (.ofString "bad\nvalue\n")⟩)] 1)) ⟨(), "s.xsd"⟩
        Schema.Validator.noFiles (.memory [] "doc.xml")).outcome.run Thread.fresh).1 =
          .ok [⟨"doc.xml:1:1", "bad\nvalue"⟩] ∧
      linesOf (human.text [⟨"doc.xml:1:1", "bad\nvalue"⟩]) =
        ["location: doc.xml:1:1 message: bad", "value"] :=
  ⟨Schematron.Validator.validate_telling (by decide), by decide, by rfl, by decide⟩

end ReportFormat

end Conformance
