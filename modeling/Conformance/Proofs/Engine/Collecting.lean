import Conformance.Proofs.Engine.Passive

/-!
# What a collector holds after a call

A call to the engine may report to the handler of the thread and to the handler of its context, in
any order. As long as one collector is both, the two channels cannot be told apart: the collector
takes every notice of the call, in order.

* `Collector.receive` : one more notice, and `Collector.foldl_receive` : what many of them leave;
* `Thread.deliver_collectors` : a delivery is one `receive`, of the collector it is for;
* `Thread.report_collectors` : a notice for a handler, or for a context, which is one or none.
-/

namespace Conformance

variable {E : Engine} {α : Type}

/-! ## Collectors -/

/-- Whether a notice is about an error or a fatal error. -/
def Notice.isViolation (notice : Notice) : Bool :=
  notice.level = 2 ∨ notice.level = 3

/-- The errors and fatal errors among notices, on one line, each with its place. -/
def Notice.details (systemId : String) (notices : List Notice) : String :=
  "; ".intercalate ((notices.filter Notice.isViolation).map fun notice =>
    notice.location systemId ++ ": " ++ notice.text)

namespace Collector

/-- The collector after one more notice. -/
def receive (collector : Collector) (notice : Notice) : Collector :=
  match notice.diagnostic? collector.systemId with
  | some diagnostic => collector.record diagnostic
  | none => collector

/-- Notices of level 1 and of unknown levels leave no trace, those of level 2 and 3 one violation
each, and those of level 3 the mark that something fatal was seen. -/
theorem receive_eq (collector : Collector) (notice : Notice) :
    collector.receive notice =
      { collector with
        violations := collector.violations ++
          if notice.isViolation then [⟨notice.location collector.systemId, notice.text⟩] else []
        fatalSeen := collector.fatalSeen || notice.level = 3 } := by
  unfold receive Notice.diagnostic? Notice.severity? Notice.isViolation
  by_cases h1 : notice.level = 1
  · have h2 : notice.level ≠ 2 := by rw [h1]; decide
    have h3 : notice.level ≠ 3 := by rw [h1]; decide
    simp [h1, record, Diagnostic.violation?]
  · by_cases h2 : notice.level = 2
    · simp [h2, record, Diagnostic.violation?]
    · by_cases h3 : notice.level = 3
      · simp [h3, record, Diagnostic.violation?]
      · simp [h1, h2, h3]

theorem receive_systemId (collector : Collector) (notice : Notice) :
    (collector.receive notice).systemId = collector.systemId := by
  rw [receive_eq]

theorem foldl_receive (notices : List Notice) (collector : Collector) :
    notices.foldl receive collector =
      { collector with
        violations := collector.violations ++ (notices.filter Notice.isViolation).map
          fun notice => ⟨notice.location collector.systemId, notice.text⟩
        fatalSeen := collector.fatalSeen || notices.any fun notice => notice.level = 3 } := by
  induction notices generalizing collector with
  | nil => simp
  | cons notice notices ih =>
      rw [List.foldl_cons, ih, receive_systemId, receive_eq]
      cases h : notice.isViolation <;> simp [h, Bool.or_assoc]

/-- What a collector says of the notices that it has received. -/
theorem summary_foldl_receive (systemId : String) (notices : List Notice) :
    (notices.foldl receive (new systemId)).summary = Notice.details systemId notices := by
  rw [foldl_receive, summary, Notice.details, new, List.nil_append, List.map_map]
  rfl

end Collector

/-! ## Threads -/

namespace Thread

theorem deliver_collectors (thread : Thread E) (collector : Nat) (notice : Notice) :
    (thread.deliver collector notice).collectors =
      thread.collectors.modify collector (·.receive notice) := by
  apply List.ext_getElem?
  intro i
  by_cases hi : collector = i
  · subst hi
    rw [List.getElem?_modify_eq]
    cases hstate : thread.collectors[collector]? with
    | none => unfold deliver; split <;> simp [record, hstate]
    | some state =>
        have hcollected : thread.collected collector = state := by rw [collected, hstate]; rfl
        rw [deliver, hcollected, Option.map_eq_map, Option.map_some, Collector.receive]
        cases notice.diagnostic? state.systemId <;> simp [record, hstate]
  · rw [List.getElem?_modify_ne _ _ hi]
    unfold deliver
    split
    · exact List.getElem?_modify_ne _ _ hi
    · rfl

/-- A notice reaches the collector that is installed, unless it is for a context and there is
none; it reaches no other. -/
theorem report_collectors {thread : Thread E} {context : Option Nat}
    (hcontext : context = none ∨ context = thread.handler) {collector : Nat}
    (hhandler : thread.handler = some collector) (channel : Channel) (notice : Notice) :
    (thread.report context channel notice).collectors =
      if channel = .context ∧ context = none then thread.collectors
      else thread.collectors.modify collector (·.receive notice) := by
  rcases hcontext with rfl | rfl
  · cases channel with
    | thread => simp [report, hhandler, deliver_collectors]
    | context => simp [report]
  · cases channel <;> simp [report, hhandler, deliver_collectors]

end Thread

end Conformance
