import Conformance.Proofs.Json.RoundTrip
import Conformance.Report

/-!
# Reports read back and delivered

A report for programs is read back as the violations that it was made of, whatever characters they
have. A report of either form goes to one stream, which takes it whole or is left as it was, and the
other stream has nothing to do with it.

* `Violation.ofJson?_reread` : one violation, written and read back;
* `ReportFormat.sink` : the stream of a report, with `deliver_of_admits` and `deliver_of_not_admits`
  for what becomes of it;
* `ReportFormat.lossless_and_whole` : both together.
-/

namespace Conformance

/-! ## Violations read back -/

namespace Violation

theorem numberless_toJson (violation : Violation) : violation.toJson.Numberless := by
  refine .object fun member hmember => ?_
  simp only [List.map_cons, List.map_nil, List.mem_cons, List.not_mem_nil, or_false] at hmember
  rcases hmember with rfl | rfl
  · exact .string _
  · exact .string _

/-- The two names tell the two texts apart when they are read back. -/
theorem ofJson?_reread (violation : Violation) :
    ofJson? violation.toJson.reread = some violation := by
  simp [toJson, Json.ofMembers, Json.ofString, Json.reread, Json.rereadMembers, ofJson?, only?,
    Json.text?, Json.Literal.text?_reread]

theorem listOfJson?_reread (violations : List Violation) :
    listOfJson? (Json.array (violations.map toJson)).reread = some violations := by
  rw [Json.reread, listOfJson?]
  induction violations with
  | nil => rfl
  | cons violation violations ih =>
      rw [List.map_cons, Json.rereadItems, List.mapM_cons, ofJson?_reread, ih]
      rfl

/-- The report for programs has all that was found in it. -/
theorem listOfJson?_read?_text (violations : List Violation) :
    (Json.read? (ReportFormat.json.text violations)).bind listOfJson? = some violations := by
  have hvalue : (Json.array (violations.map toJson)).Numberless := by
    refine .array fun item hitem => ?_
    obtain ⟨violation, -, rfl⟩ := List.mem_map.1 hitem
    exact numberless_toJson violation
  have hblank : ∀ c ∈ ['\n'], Json.isSpace c = true :=
    fun c hc => List.mem_singleton.1 hc ▸ rfl
  have hread := Json.read?_pretty hvalue ['\n'] hblank
  rw [ReportFormat.text, show "\n" = String.ofList ['\n'] from rfl, hread, Option.bind_some,
    listOfJson?_reread]

end Violation

/-! ## Delivery -/

namespace ReportFormat

/-- The stream that a report goes to. -/
def sink (format : ReportFormat) (streams : Streams) : Sink :=
  match format with
  | .human => streams.err
  | .json => streams.out

section

variable {format : ReportFormat} {violations : List Violation} {streams : Streams}

theorem deliver_of_admits (h : (format.sink streams).admits (format.text violations) = true) :
    (format.deliver violations streams).1 = .ok () ∧
      format.sink (format.deliver violations streams).2 =
        { format.sink streams with
          written := (format.sink streams).written ++ format.text violations } := by
  cases format with
  | human =>
      rw [sink] at h
      rw [deliver, Sink.write, if_pos h]
      exact ⟨rfl, rfl⟩
  | json =>
      rw [sink] at h
      rw [deliver, Sink.write, if_pos h]
      exact ⟨rfl, rfl⟩

theorem deliver_of_not_admits (h : ¬ (format.sink streams).admits (format.text violations) = true) :
    format.deliver violations streams = (.error .full, streams) := by
  cases format with
  | human =>
      rw [sink] at h
      rw [deliver, Sink.write, if_neg h]
  | json =>
      rw [sink] at h
      rw [deliver, Sink.write, if_neg h]

end

/-- The report for programs is read back as the violations that it was made of. A report is
delivered exactly if its stream takes it, and then the stream has the text of the report and nothing
else in addition; otherwise both streams are as they were. The stream that is not for reports of
that form is so in any case. -/
theorem lossless_and_whole (format : ReportFormat) (violations : List Violation)
    (streams : Streams) :
    (Json.read? (ReportFormat.json.text violations)).bind Violation.listOfJson? =
        some violations ∧
      (ReportFormat.json.deliver violations streams).2.err = streams.err ∧
      (ReportFormat.human.deliver violations streams).2.out = streams.out ∧
      ((format.deliver violations streams).1 = .ok () ↔
        (format.sink streams).admits (format.text violations) = true) ∧
      ((format.deliver violations streams).1 = .ok () →
        format.sink (format.deliver violations streams).2 =
          { format.sink streams with
            written := (format.sink streams).written ++ format.text violations }) ∧
      ((format.deliver violations streams).1 ≠ .ok () →
        (format.deliver violations streams).2 = streams) := by
  refine ⟨Violation.listOfJson?_read?_text violations, rfl, rfl, ?_⟩
  by_cases hadmits : (format.sink streams).admits (format.text violations) = true
  · obtain ⟨houtcome, hsink⟩ := deliver_of_admits hadmits
    exact ⟨⟨fun _ => hadmits, fun _ => houtcome⟩, fun _ => hsink, fun h => absurd houtcome h⟩
  · rw [deliver_of_not_admits hadmits]
    exact ⟨⟨fun h => (nomatch h), fun h => absurd h hadmits⟩, fun h => (nomatch h), fun _ => rfl⟩

end ReportFormat

end Conformance
