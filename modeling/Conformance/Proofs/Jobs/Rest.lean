import Conformance.Proofs.Engine.Collecting
import Conformance.Proofs.Engine.Stepping
import Conformance.Proofs.Jobs.Basic
import Conformance.Proofs.Schema.Validation

/-!
# Threads between jobs

A thread is at rest if no collector is installed and no resolution is in force. Every job, however
it ends, leaves a thread at rest that it found at rest, and while it lasts no collector is installed
on top of another.

* `Thread.AtRest` : its notices are lost and its entities are loaded from where they are said to be
  (`AtRest.report`, `AtRest.fetch`);
* `Orderly.free_of_install`, `Orderly.context_of_report` : what an action of an orderly session
  finds on its thread;
* `Job.atRest_of_sessions` : any number of jobs.
-/

namespace Conformance

variable {E : Engine} {α : Type}

namespace Thread

/-- Nothing is installed and nothing is in force. -/
structure AtRest (thread : Thread E) : Prop where
  handler : thread.handler = none
  resolution : thread.resolution = none

theorem AtRest.settings {thread : Thread E} (h : thread.AtRest) :
    thread.settings = ⟨none, none⟩ := by
  rw [Thread.settings, h.handler, h.resolution]

theorem atRest_of_settings {thread : Thread E} (h : thread.settings = ⟨none, none⟩) :
    thread.AtRest :=
  ⟨congrArg Settings.handler h, congrArg Settings.resolution h⟩

/-- Nobody takes the notices of a thread at rest. -/
theorem AtRest.report {thread : Thread E} (h : thread.AtRest) (channel : Channel)
    (notice : Notice) : thread.report none channel notice = thread := by
  cases channel with
  | thread => simp only [Thread.report, h.handler]
  | context => rfl

/-- A thread at rest loads every URL as it is. -/
theorem AtRest.fetch {thread : Thread E} (h : thread.AtRest) (url publicId : Option RawText) :
    thread.fetch url publicId = (E.openEntity url publicId,
      thread.note [.opened url publicId (E.openEntity url publicId).isSome]) := by
  have htarget : thread.target url publicId = url := by
    unfold target
    rw [h.resolution]
    cases url.bind RawText.text? <;> rfl
  have hconsulted : thread.consulted url publicId = [] := by
    unfold consulted
    rw [h.resolution]
    cases url.bind RawText.text? <;> rfl
  rw [Thread.fetch, htarget, hconsulted]
  rfl

end Thread

/-! ## Actions of orderly sessions -/

namespace Session.Orderly

variable {before after : Settings E} {next : Session E α}

theorem free_of_install {collector : Nat} (h : Orderly before after (.install collector next)) :
    before.handler = none := by
  cases h with
  | install _ hfree _ => exact hfree

theorem context_of_report {context : Option Nat} {channel : Channel} {notice : Notice}
    (h : Orderly before after (.report context channel notice next)) :
    context = none ∨ context = before.handler := by
  cases h with
  | report _ _ hcontext _ => exact hcontext

end Session.Orderly

/-! ## Jobs -/

namespace Job

/-- However many jobs there are and however each of them ends, the thread is at rest again: its
notices reach no collector and its entities are loaded without a redirection. At every moment in
between, a collector is installed only if none is, and a notice reaches the collector that is
installed and no other. -/
theorem atRest_of_sessions (jobs : List (Job E)) {thread : Thread E} (hthread : thread.AtRest) :
    let after := ((sessions jobs).run thread).2
    (after.handler = none ∧ after.resolution = none ∧
      (∀ channel notice, after.report none channel notice = after) ∧
      ∀ url publicId, after.fetch url publicId = (E.openEntity url publicId,
        after.note [.opened url publicId (E.openEntity url publicId).isSome])) ∧
    (∀ count now collector next,
      (sessions jobs).steps count thread = (.install collector next, now) → now.handler = none) ∧
    ∀ count now context channel notice next collector,
      (sessions jobs).steps count thread = (.report context channel notice next, now) →
        now.handler = some collector →
          (now.report context channel notice).collectors =
            if channel = .context ∧ context = none then now.collectors
            else now.collectors.modify collector (·.receive notice) := by
  have horderly : Session.Orderly thread.settings ⟨none, none⟩ (sessions jobs) := by
    rw [hthread.settings]
    exact (bracketed_sessions jobs).orderly rfl
  refine ⟨?_, ?_, ?_⟩
  · have hafter := Thread.atRest_of_settings horderly.run_settings
    exact ⟨hafter.handler, hafter.resolution, hafter.report, hafter.fetch⟩
  · intro count now collector next hmoment
    have hnow := horderly.steps count
    rw [hmoment] at hnow
    exact hnow.free_of_install
  · intro count now context channel notice next collector hmoment hhandler
    have hnow := horderly.steps count
    rw [hmoment] at hnow
    exact Thread.report_collectors hnow.context_of_report hhandler channel notice

/-- An engine that always has something to report and gets nowhere after parsing. -/
def troubled : Engine :=
  { Schema.Validator.uniform Schema.Validator.mixed with
    loadCatalog := fun _ => some ()
    parse := fun _ _ => Schema.Validator.mixed.bind fun _ => .done (some ())
    compileSchema := fun _ => some (Schema.Validator.mixed.bind fun _ => .done none)
    compileStylesheet := fun _ => Schema.Validator.mixed.bind fun _ => .done (some ())
    apply := fun _ _ => Schema.Validator.mixed.bind fun _ => .done none }

/-- A job that fails while redirects are planned, one that fails while a schema is compiled, one
with a result and one that fails while a transform is applied. -/
def troubles : List (Job troubled) :=
  [.compile Schema.Validator.noFiles (.memory [] "s.xsd") (some "catalog.xml"),
    .compile Schema.Validator.noFiles (.memory [] "s.xsd") none,
    .validate Schema.Validator.noFiles ⟨(), "s.xsd"⟩ (.memory [] "doc.xml"),
    .transform Schema.Validator.noFiles ⟨.memory [] "t.xsl", some "catalog.xml"⟩
      (.memory [] "doc.xml")]

theorem atRest_of_sessions_troubles :
    let after := ((sessions troubles).run Thread.fresh).2
    (after.handler = none ∧ after.resolution = none) ∧
      after.collectors.map (·.violations.length) = [1, 3, 2, 2, 2] := by
  have hfresh : (Thread.fresh : Thread troubled).AtRest := ⟨rfl, rfl⟩
  have hrest := atRest_of_sessions troubles hfresh
  exact ⟨⟨hrest.1.1, hrest.1.2.1⟩, by rfl⟩

end Job

end Conformance
