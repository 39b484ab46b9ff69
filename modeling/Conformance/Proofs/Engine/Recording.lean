import Conformance.Engine.Thread
import Conformance.Proofs.Text.Trimming
import Conformance.Proofs.Text.WellFormed

/-!
# What a collector makes of what it is given

A collector is given diagnostics, and notices of the engine, in any order. What it then holds, and
what is in the log, is what these say, one after another: errors and fatal errors are held, and
warnings are in the log.

* `Notice.Says`, `Arrival.Says` : what a notice or a diagnostic says of a document, if anything;
* `Thread.accept` : the thread after one arrival at a collector, `Thread.acceptAll` : after many.

## Main statements

* `Thread.collector_is_fold` : what is held and what is logged after any arrivals, and what one more
  can change.
-/

namespace Conformance

variable {E : Engine}

/-! ## What is said -/

/-- The level of a severity. -/
def Severity.level : Severity → Int32
  | .warning => 1
  | .error => 2
  | .fatal => 3

namespace Notice

/-- What a notice says of the document of a system id. The system id stands in for a file that is
missing or no text; a message that is missing or no text is empty. -/
structure Says (notice : Notice) (systemId : String) (event : Diagnostic) : Prop where
  level : notice.level = event.severity.level
  location : ∃ file, (RawText.Holds notice.file file ∨
      (∀ text, ¬ RawText.Holds notice.file text) ∧ file = systemId) ∧
    event.location =
      file ++ ":" ++ toString notice.line.toInt ++ ":" ++ toString notice.column.toInt
  message : ∀ text, RawText.Holds notice.message text → Trims text event.message
  unread : (∀ text, ¬ RawText.Holds notice.message text) → event.message = ""

theorem severity?_eq_some_iff {notice : Notice} {severity : Severity} :
    notice.severity? = some severity ↔ notice.level = severity.level := by
  unfold severity? Severity.level
  by_cases h1 : notice.level = 1
  · cases severity <;> simp [h1]
  · by_cases h2 : notice.level = 2
    · cases severity <;> simp [h2]
    · by_cases h3 : notice.level = 3
      · cases severity <;> simp [h3]
      · cases severity <;> simp [h1, h2, h3]

theorem fileOr_eq_iff {notice : Notice} {systemId file : String} :
    notice.fileOr systemId = file ↔ RawText.Holds notice.file file ∨
      (∀ text, ¬ RawText.Holds notice.file text) ∧ file = systemId := by
  simp only [RawText.holds_iff, fileOr]
  cases notice.file.bind RawText.text? with
  | none => simp [eq_comm]
  | some text => simp

theorem text_eq_iff {notice : Notice} {message : String} :
    notice.text = message ↔ (∀ text, RawText.Holds notice.message text → Trims text message) ∧
      ((∀ text, ¬ RawText.Holds notice.message text) → message = "") := by
  simp only [RawText.holds_iff, trims_iff, text]
  cases notice.message.bind RawText.text? with
  | none =>
      have hempty : trimmed "" = "" := rfl
      simp [hempty, eq_comm]
  | some text => simp [eq_comm]

/-- The diagnostic of a notice is what the notice says. -/
theorem diagnostic?_eq_some_iff {notice : Notice} {systemId : String} {event : Diagnostic} :
    notice.diagnostic? systemId = some event ↔ notice.Says systemId event := by
  rw [diagnostic?, Option.map_eq_some_iff]
  constructor
  · rintro ⟨severity, hseverity, rfl⟩
    obtain ⟨hmessage, hunread⟩ := text_eq_iff.1 (rfl : notice.text = _)
    exact ⟨severity?_eq_some_iff.1 hseverity, ⟨_, fileOr_eq_iff.1 rfl, rfl⟩, hmessage, hunread⟩
  · rintro ⟨hlevel, ⟨file, hfile, hlocation⟩, hmessage, hunread⟩
    have hplace : notice.location systemId = event.location := by
      rw [hlocation, Notice.location, fileOr_eq_iff.2 hfile]
    refine ⟨event.severity, severity?_eq_some_iff.2 hlevel, ?_⟩
    rw [hplace, text_eq_iff.2 ⟨hmessage, hunread⟩]

end Notice

/-- What a collector is given: a diagnostic, or a notice that the engine raises. -/
inductive Arrival where
  | recorded (event : Diagnostic)
  | raised (notice : Notice)

namespace Arrival

/-- What an arrival says of the document of a system id. -/
inductive Says (systemId : String) : Arrival → Diagnostic → Prop where
  | recorded (event : Diagnostic) : Says systemId (.recorded event) event
  | raised {notice : Notice} {event : Diagnostic} (h : notice.Says systemId event) :
      Says systemId (.raised notice) event

/-- The diagnostic that an arrival amounts to. -/
def event? (systemId : String) : Arrival → Option Diagnostic
  | .recorded event => some event
  | .raised notice => notice.diagnostic? systemId

theorem event?_eq_some_iff {arrival : Arrival} {systemId : String} {event : Diagnostic} :
    arrival.event? systemId = some event ↔ arrival.Says systemId event := by
  cases arrival with
  | recorded given =>
      rw [event?, Option.some_inj]
      exact ⟨fun h => h ▸ .recorded given, fun h => by cases h; rfl⟩
  | raised notice =>
      rw [event?, Notice.diagnostic?_eq_some_iff]
      exact ⟨.raised, fun h => by cases h; assumption⟩

/-- A notice of an unknown level says nothing. -/
theorem event?_raised_of_unknown {notice : Notice} (systemId : String) (h1 : notice.level ≠ 1)
    (h2 : notice.level ≠ 2) (h3 : notice.level ≠ 3) : event? systemId (.raised notice) = none := by
  refine Option.eq_none_iff_forall_ne_some.2 fun event hevent => ?_
  have hlevel := (Notice.diagnostic?_eq_some_iff.1 hevent).level
  cases hseverity : event.severity <;> rw [hseverity] at hlevel <;> contradiction

end Arrival

/-! ## What is held -/

namespace Collector

theorem record_systemId (collector : Collector) (event : Diagnostic) :
    (collector.record event).systemId = collector.systemId := rfl

/-- A collector after many diagnostics. -/
theorem foldl_record (events : List Diagnostic) (collector : Collector) :
    events.foldl record collector =
      { collector with
        violations := collector.violations ++ events.filterMap Diagnostic.violation?
        fatalSeen := collector.fatalSeen || events.any (·.severity == .fatal) } := by
  induction events generalizing collector with
  | nil => simp
  | cons event events ih =>
      rw [List.foldl_cons, ih, record, List.filterMap_cons, List.any_cons]
      cases event.violation? <;> simp [Bool.or_assoc]

end Collector

namespace Diagnostic

/-- All but warnings are violations. -/
theorem filterMap_violation? (events : List Diagnostic) :
    events.filterMap violation? = (events.filter (·.severity ≠ .warning)).map
      fun event => ⟨event.location, event.message⟩ := by
  induction events with
  | nil => rfl
  | cons event events ih =>
      obtain ⟨severity, location, message⟩ := event
      cases severity with
      | warning => rw [List.filterMap_cons_none rfl, ih, List.filter_cons_of_neg (by simp)]
      | error | fatal =>
          rw [List.filter_cons_of_pos (by simp), List.map_cons, ← ih]
          exact List.filterMap_cons_some rfl

/-- Warnings are logged, and nothing else is. -/
theorem filterMap_logged? (events : List Diagnostic) :
    events.filterMap logged? = (events.filter (·.severity = .warning)).map
      fun event => ⟨.warn, event.message, [("location", .text event.location)]⟩ := by
  induction events with
  | nil => rfl
  | cons event events ih =>
      obtain ⟨severity, location, message⟩ := event
      cases severity with
      | warning =>
          rw [List.filter_cons_of_pos (by simp), List.map_cons, ← ih]
          exact List.filterMap_cons_some rfl
      | error | fatal => rw [List.filterMap_cons_none rfl, ih, List.filter_cons_of_neg (by simp)]

end Diagnostic

namespace Thread

/-- A thread after one arrival at a collector. -/
def accept (thread : Thread E) (collector : Nat) : Arrival → Thread E
  | .recorded event => thread.record collector event
  | .raised notice => thread.deliver collector notice

/-- A thread after arrivals at a collector, one after another. -/
def acceptAll (thread : Thread E) (collector : Nat) (arrivals : List Arrival) : Thread E :=
  arrivals.foldl (·.accept collector) thread

theorem acceptAll_concat (thread : Thread E) (collector : Nat) (arrivals : List Arrival)
    (arrival : Arrival) :
    thread.acceptAll collector (arrivals ++ [arrival]) =
      (thread.acceptAll collector arrivals).accept collector arrival := by
  rw [acceptAll, List.foldl_append]
  rfl

section

variable {thread : Thread E} {collector : Nat} {state : Collector}

theorem collected_of_getElem? (h : thread.collectors[collector]? = some state) :
    thread.collected collector = state := by
  rw [collected, h]
  rfl

/-- One arrival: what it says is recorded in the collector, and logged if it is a warning. -/
theorem accept_eq (h : thread.collectors[collector]? = some state) (arrival : Arrival) :
    thread.accept collector arrival =
      (arrival.event? state.systemId).elim thread (thread.record collector) := by
  cases arrival with
  | recorded event => rfl
  | raised notice =>
      rw [accept, deliver, collected_of_getElem? h, Arrival.event?]
      cases notice.diagnostic? state.systemId <;> rfl

theorem record_getElem? (h : thread.collectors[collector]? = some state) (event : Diagnostic) :
    (thread.record collector event).collectors[collector]? = some (state.record event) := by
  rw [record, List.getElem?_modify_eq, h]
  rfl

/-- Many arrivals: what they say is recorded in the collector one after another, and the warnings
among it are logged. -/
theorem acceptAll_eq (h : thread.collectors[collector]? = some state) (arrivals : List Arrival) :
    (thread.acceptAll collector arrivals).collectors[collector]? =
        some ((arrivals.filterMap (Arrival.event? state.systemId)).foldl Collector.record state) ∧
      (thread.acceptAll collector arrivals).log = thread.log ++
        (arrivals.filterMap (Arrival.event? state.systemId)).filterMap Diagnostic.logged? := by
  induction arrivals generalizing thread state with
  | nil => exact ⟨h, (List.append_nil _).symm⟩
  | cons arrival arrivals ih =>
      rw [acceptAll, List.foldl_cons, ← acceptAll, accept_eq h, List.filterMap_cons]
      cases arrival.event? state.systemId with
      | none => exact ih h
      | some event =>
          obtain ⟨hheld, hlog⟩ := ih (record_getElem? h event)
          rw [Collector.record_systemId] at hheld hlog
          refine ⟨hheld, hlog.trans ?_⟩
          have hrecord : (thread.record collector event).log =
              thread.log ++ event.logged?.toList := rfl
          rw [hrecord, List.append_assoc]
          simp only [List.filterMap_cons]
          cases event.logged? <;> rfl

end

/-- A new collector of a document. After any arrivals it holds the errors and fatal errors that they
say, one violation each in their order, and whether any was fatal; the log has the warnings that they
say, in their order. One more arrival adds at most one violation, at the end, and a notice of an
unknown level changes nothing at all. -/
theorem collector_is_fold (thread : Thread E) (systemId : String) (arrivals : List Arrival) :
    let collector := (thread.collect systemId).1
    let after (arrivals : List Arrival) := (thread.collect systemId).2.acceptAll collector arrivals
    let held (arrivals : List Arrival) := (after arrivals).collected collector
    let events := arrivals.filterMap (Arrival.event? systemId)
    (∀ (arrival : Arrival) (event : Diagnostic),
        arrival.event? systemId = some event ↔ arrival.Says systemId event) ∧
      (held arrivals).violations = (events.filter (·.severity ≠ .warning)).map
        (fun event => ⟨event.location, event.message⟩) ∧
      ((held arrivals).hasErrors = true ↔ (held arrivals).violations ≠ []) ∧
      ((held arrivals).fatalSeen = true ↔ ∃ event ∈ events, event.severity = .fatal) ∧
      (after arrivals).log = thread.log ++ (events.filter (·.severity = .warning)).map
        (fun event => ⟨.warn, event.message, [("location", .text event.location)]⟩) ∧
      (∀ arrival, ∃ added : Option Violation, (held (arrivals ++ [arrival])).violations =
        (held arrivals).violations ++ added.toList) ∧
      ∀ notice : Notice, notice.level ≠ 1 → notice.level ≠ 2 → notice.level ≠ 3 →
        after (arrivals ++ [.raised notice]) = after arrivals := by
  intro collector after held events
  have hnew : (thread.collect systemId).2.collectors[collector]? =
      some (Collector.new systemId) := by
    simp [collector, collect]
  have hheld (arrivals : List Arrival) : held arrivals =
      (arrivals.filterMap (Arrival.event? systemId)).foldl Collector.record
        (Collector.new systemId) :=
    collected_of_getElem? (acceptAll_eq hnew arrivals).1
  have hviolations (arrivals : List Arrival) : (held arrivals).violations =
      (arrivals.filterMap (Arrival.event? systemId)).filterMap Diagnostic.violation? := by
    rw [hheld, Collector.foldl_record]
    exact List.nil_append _
  refine ⟨fun _ _ => Arrival.event?_eq_some_iff, ?_, ?_, ?_, ?_, fun arrival => ?_,
    fun notice h1 h2 h3 => ?_⟩
  · rw [hviolations, Diagnostic.filterMap_violation?]
  · rw [Collector.hasErrors, Bool.not_eq_true', List.isEmpty_eq_false_iff]
  · rw [hheld, Collector.foldl_record]
    simp only [Collector.new, Bool.false_or, List.any_eq_true, beq_iff_eq]
    exact Iff.rfl
  · rw [← Diagnostic.filterMap_logged?]
    exact (acceptAll_eq hnew arrivals).2
  · refine ⟨(arrival.event? systemId).bind Diagnostic.violation?, ?_⟩
    rw [hviolations, hviolations, List.filterMap_append, List.filterMap_append]
    cases hevent : arrival.event? systemId with
    | none => simp [hevent]
    | some event => cases hviolation : event.violation? <;> simp [hevent, hviolation]
  · -- the fold comes to the notice last, and then to nothing
    refine (acceptAll_concat _ collector arrivals _).trans ?_
    rw [accept_eq (acceptAll_eq hnew arrivals).1, Collector.foldl_record]
    exact congrArg (Option.elim · _ _) (Arrival.event?_raised_of_unknown systemId h1 h2 h3)

/-- An error without a file, a warning and a notice of no known level. -/
example :
    let start := ((fresh : Thread E).collect "doc.xml").2
    let after := start.acceptAll 0
      [.raised ⟨2, none, 3, -1, some (.ofString " bad\n")⟩, .recorded ⟨.warning, "p:1:1", " odd "⟩,
        .raised ⟨7, none, 1, 1, none⟩]
    (after.collected 0).violations = [⟨"doc.xml:3:-1", "bad"⟩] ∧
      after.log = [⟨.warn, " odd ", [("location", .text "p:1:1")]⟩] :=
  ⟨rfl, rfl⟩

end Thread

end Conformance
