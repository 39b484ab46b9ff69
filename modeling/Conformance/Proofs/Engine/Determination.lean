import Conformance.Proofs.Engine.Brackets
import Conformance.Proofs.Engine.Calls

/-!
# What brackets leave of a thread

A session made of brackets comes to the same on all threads under one resolution: whatever collector
is installed, whatever was collected, called or logged before, it has the same value and makes the
same calls, and the resolution is the same again afterwards.

* `Session.Enclosed.exists_called` : inside a bracket, where a collector is installed;
* `Session.Bracketed.exists_run` : outside;
* `Attempt.Bracketed.run_fst` : so an attempt made of brackets has a value, as a passive one has.
-/

namespace Conformance

variable {E : Engine} {α β : Type}

namespace Session

/-- What a session in a bracket comes to depends on the resolution alone. -/
theorem Enclosed.exists_called {body : Nat → Session E α} (h : Enclosed body)
    (resolution : Option (Resolution E)) :
    ∃ value calls notices, ∀ (thread : Thread E) (collector : Nat),
      thread.resolution = resolution → thread.handler = some collector →
        ∃ after, (body collector).run thread = (value, after) ∧
          thread.Called calls notices after := by
  induction h generalizing resolution with
  | passive h =>
      obtain ⟨value, calls, notices, hrun⟩ := h.exists_called resolution
      exact ⟨value, calls, notices, fun thread _ hthread _ => hrun thread hthread⟩
  | follow call =>
      refine ⟨call.value (E.find resolution), call.calls resolution,
        call.notices (E.find resolution), ?_⟩
      rintro thread collector rfl hhandler
      have hcalled : thread.Called _ _ ((Session.follow (some collector) call).run thread).2 :=
        called_follow call (Or.inr hhandler.symm)
      rw [Run.heard_some] at hcalled
      exact ⟨_, Prod.ext (run_follow (some collector) call thread) rfl, hcalled⟩
  | @bind _ _ body after _ _ ih ihafter =>
      obtain ⟨value, calls, notices, hrun⟩ := ih resolution
      obtain ⟨result, calls', notices', hrun'⟩ := ihafter value resolution
      refine ⟨result, calls ++ calls', notices ++ notices',
        fun thread collector hthread hhandler => ?_⟩
      obtain ⟨between, hbetween, hcalled⟩ := hrun thread collector hthread hhandler
      obtain ⟨last, hlast, hcalled'⟩ := hrun' between collector (hcalled.resolution.trans hthread)
        (hcalled.handler.trans hhandler)
      refine ⟨last, ?_, hcalled.trans hcalled'⟩
      rw [run_bind, hbetween]
      exact hlast
  | @within _ inner body _ ih =>
      cases inner with
      | none => exact ih resolution
      | some inner =>
          obtain ⟨value, calls, notices, hrun⟩ := ih (some inner)
          refine ⟨value, calls, notices, fun thread collector hthread hhandler => ?_⟩
          obtain ⟨last, hlast, hcalled⟩ := hrun (thread.enter inner).2 collector rfl hhandler
          refine ⟨last.restore thread.resolution, ?_, hcalled.handler, rfl, hcalled.journal,
            hcalled.collectors⟩
          have hwithin := run_bind (body collector)
            (fun value => .restore thread.resolution (.done value)) (thread.enter inner).2
          rw [hlast] at hwithin
          exact hwithin

/-- What a session made of brackets comes to depends on the resolution alone. -/
theorem Bracketed.exists_run {session : Session E α} (h : Bracketed session)
    (resolution : Option (Resolution E)) :
    ∃ value calls, ∀ thread : Thread E, thread.resolution = resolution →
      ∃ after, session.run thread = (value, after) ∧ after.resolution = resolution ∧
        after.journal = thread.journal ++ calls := by
  induction h generalizing resolution with
  | passive h =>
      obtain ⟨value, calls, notices, hrun⟩ := h.exists_called resolution
      refine ⟨value, calls, fun thread hthread => ?_⟩
      obtain ⟨after, hafter, hcalled⟩ := hrun thread hthread
      exact ⟨after, hafter, hcalled.resolution.trans hthread, hcalled.journal⟩
  | @capturing _ systemId body h =>
      obtain ⟨value, calls, notices, hrun⟩ := h.exists_called resolution
      refine ⟨(value, notices.foldl Collector.receive (Collector.new systemId)), calls,
        fun thread hthread => ?_⟩
      obtain ⟨after, hafter, hcalled⟩ :=
        hrun ((thread.collect systemId).2.install thread.collectors.length)
          thread.collectors.length hthread rfl
      have hheld : after.uninstall.collected thread.collectors.length =
          notices.foldl Collector.receive (Collector.new systemId) := by
        simp [Thread.collected, Thread.uninstall, hcalled.collectors rfl, Thread.install,
          Thread.collect]
      refine ⟨after.uninstall, ?_, hcalled.resolution.trans hthread, hcalled.journal⟩
      rw [run_capturing hafter, hheld]
  | @within _ inner body _ ih =>
      cases inner with
      | none => exact ih resolution
      | some inner =>
          obtain ⟨value, calls, hrun⟩ := ih (some inner)
          refine ⟨value, calls, fun thread hthread => ?_⟩
          obtain ⟨last, hlast, -, hjournal⟩ := hrun (thread.enter inner).2 rfl
          refine ⟨last.restore thread.resolution, ?_, hthread, hjournal⟩
          have hwithin := run_bind body
            (fun value => .restore thread.resolution (.done value)) (thread.enter inner).2
          rw [hlast] at hwithin
          exact hwithin
  | @bind _ _ session after _ _ ih ihafter =>
      obtain ⟨value, calls, hrun⟩ := ih resolution
      obtain ⟨result, calls', hrun'⟩ := ihafter value resolution
      refine ⟨result, calls ++ calls', fun thread hthread => ?_⟩
      obtain ⟨between, hbetween, hresolution, hjournal⟩ := hrun thread hthread
      obtain ⟨last, hlast, hresolution', hjournal'⟩ := hrun' between hresolution
      refine ⟨last, ?_, hresolution', ?_⟩
      · rw [run_bind, hbetween]
        exact hlast
      · rw [hjournal', hjournal, List.append_assoc]

end Session

namespace Attempt

/-- On whatever thread it runs, an attempt made of brackets gives its value. -/
theorem Bracketed.run_fst {attempt : Attempt E α} (h : attempt.Bracketed) (thread : Thread E) :
    (attempt.outcome.run thread).1 = attempt.value thread.resolution := by
  obtain ⟨value, calls, hrun⟩ := Session.Bracketed.exists_run h thread.resolution
  obtain ⟨after, hafter, -⟩ := hrun thread rfl
  obtain ⟨after', hafter', -⟩ := hrun (Thread.under thread.resolution) rfl
  rw [Attempt.value, hafter, hafter']

/-- The resolution in force is the same after an attempt made of brackets. -/
theorem Bracketed.run_resolution {attempt : Attempt E α} (h : attempt.Bracketed)
    (thread : Thread E) : (attempt.outcome.run thread).2.resolution = thread.resolution := by
  obtain ⟨value, calls, hrun⟩ := Session.Bracketed.exists_run h thread.resolution
  obtain ⟨after, hafter, hresolution, -⟩ := hrun thread rfl
  rw [hafter]
  exact hresolution

end Attempt

end Conformance
