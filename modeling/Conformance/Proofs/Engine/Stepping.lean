import Conformance.Proofs.Engine.Brackets

/-!
# Sessions action by action

A session that is performed at one go has nothing to say about the moments in between. Here it is
performed one action at a time, and what it does to the handler and the resolution of its thread is
followed through all of them.

* `Session.step`, `Session.steps` : one action, and what is left after so many;
* `exists_steps` : a session comes to its end, where `Session.run` leads;
* `Session.Orderly` : a session that installs a collector only where none is installed, reports to
  no other than that one, and leaves the thread as agreed;
* `Orderly.step`, `Orderly.steps` : no action ends this;
* `Bracketed.orderly` : sessions made of brackets leave the handler and the resolution alone.
-/

namespace Conformance

variable {E : Engine} {α β : Type}

namespace Session

/-! ## Actions -/

/-- Performs the first action of a session, if there is one. -/
def step (session : Session E α) (thread : Thread E) : Session E α × Thread E :=
  match session with
  | .done value => (.done value, thread)
  | .note call next => (next, thread.note [call])
  | .collect systemId next => (next (thread.collect systemId).1, (thread.collect systemId).2)
  | .collected collector next => (next (thread.collected collector), thread)
  | .install collector next => (next, thread.install collector)
  | .uninstall next => (next, thread.uninstall)
  | .report context channel notice next => (next, thread.report context channel notice)
  | .enter resolution next => (next (thread.enter resolution).1, (thread.enter resolution).2)
  | .restore previous next => (next, thread.restore previous)
  | .fetch url publicId next => (next (thread.fetch url publicId).1, (thread.fetch url publicId).2)

/-- What is left of a session after so many actions, and the thread at that moment. -/
def steps (count : Nat) (session : Session E α) (thread : Thread E) : Session E α × Thread E :=
  match count with
  | 0 => (session, thread)
  | count + 1 => steps count (session.step thread).1 (session.step thread).2

/-- What is left after an action leads where the whole leads. -/
theorem run_step (session : Session E α) (thread : Thread E) :
    (session.step thread).1.run (session.step thread).2 = session.run thread := by
  cases session <;> rfl

theorem exists_steps (session : Session E α) (thread : Thread E) :
    ∃ count, session.steps count thread =
      (.done (session.run thread).1, (session.run thread).2) := by
  have hstep : ∀ {session : Session E α} {thread : Thread E},
      (∃ count, (session.step thread).1.steps count (session.step thread).2 =
        (.done (session.run thread).1, (session.run thread).2)) →
      ∃ count, session.steps count thread =
        (.done (session.run thread).1, (session.run thread).2) :=
    fun ⟨count, h⟩ => ⟨count + 1, h⟩
  induction session generalizing thread with
  | done value => exact ⟨0, rfl⟩
  | note call next ih => exact hstep (ih _)
  | collect systemId next ih => exact hstep (ih _ _)
  | collected collector next ih => exact hstep (ih _ _)
  | install collector next ih => exact hstep (ih _)
  | uninstall next ih => exact hstep (ih _)
  | report context channel notice next ih => exact hstep (ih _)
  | enter resolution next ih => exact hstep (ih _ _)
  | restore previous next ih => exact hstep (ih _)
  | fetch url publicId next ih => exact hstep (ih _ _)

end Session

/-! ## Settings -/

/-- What a session can change on its thread for what comes after. -/
structure Settings (E : Engine) where
  handler : Option Nat
  resolution : Option (Resolution E)

/-- What is set on a thread. -/
def Thread.settings (thread : Thread E) : Settings E :=
  ⟨thread.handler, thread.resolution⟩

theorem Thread.report_settings (thread : Thread E) (context : Option Nat) (channel : Channel)
    (notice : Notice) : (thread.report context channel notice).settings = thread.settings := by
  simp only [settings, report_handler, report_resolution]

namespace Session

/-- Sessions that lead from one setting to another, install a collector only while none is
installed, and give the engine no other collector to report to. -/
inductive Orderly : Settings E → Settings E → Session E α → Prop where
  | done (settings : Settings E) (value : α) : Orderly settings settings (.done value)
  | note {before after : Settings E} (call : Call) {next : Session E α}
      (h : Orderly before after next) : Orderly before after (.note call next)
  | collect {before after : Settings E} (systemId : String) {next : Nat → Session E α}
      (h : ∀ collector, Orderly before after (next collector)) :
      Orderly before after (.collect systemId next)
  | collected {before after : Settings E} (collector : Nat) {next : Collector → Session E α}
      (h : ∀ state, Orderly before after (next state)) :
      Orderly before after (.collected collector next)
  | install {before after : Settings E} (collector : Nat) {next : Session E α}
      (hfree : before.handler = none)
      (h : Orderly { before with handler := some collector } after next) :
      Orderly before after (.install collector next)
  | uninstall {before after : Settings E} {next : Session E α}
      (h : Orderly { before with handler := none } after next) :
      Orderly before after (.uninstall next)
  | report {before after : Settings E} {context : Option Nat} (channel : Channel) (notice : Notice)
      {next : Session E α} (hcontext : context = none ∨ context = before.handler)
      (h : Orderly before after next) : Orderly before after (.report context channel notice next)
  | enter {before after : Settings E} (resolution : Resolution E)
      {next : Option (Resolution E) → Session E α}
      (h : Orderly { before with resolution := some resolution } after (next before.resolution)) :
      Orderly before after (.enter resolution next)
  | restore {before after : Settings E} (previous : Option (Resolution E)) {next : Session E α}
      (h : Orderly { before with resolution := previous } after next) :
      Orderly before after (.restore previous next)
  | fetch {before after : Settings E} (url publicId : Option RawText)
      {next : Option E.Entity → Session E α} (h : ∀ entity, Orderly before after (next entity)) :
      Orderly before after (.fetch url publicId next)

namespace Orderly

/-! ## One action after another -/

theorem step {session : Session E α} {thread : Thread E} {after : Settings E}
    (h : Orderly thread.settings after session) :
    Orderly (session.step thread).2.settings after (session.step thread).1 := by
  cases h with
  | done _ value => exact .done _ value
  | note call h => exact h
  | collect systemId h => exact h _
  | collected collector h => exact h _
  | install collector hfree h => exact h
  | uninstall h => exact h
  | report channel notice hcontext h =>
      simp only [Session.step, Thread.report_settings]
      exact h
  | enter resolution h => exact h
  | restore previous h => exact h
  | fetch url publicId h => exact h _

theorem steps {session : Session E α} {thread : Thread E} {after : Settings E}
    (h : Orderly thread.settings after session) (count : Nat) :
    Orderly (session.steps count thread).2.settings after (session.steps count thread).1 := by
  induction count generalizing session thread with
  | zero => exact h
  | succ count ih => exact ih h.step

/-- At its end an orderly session has led to the settings that it was to lead to. -/
theorem run_settings {session : Session E α} {thread : Thread E} {after : Settings E}
    (h : Orderly thread.settings after session) : (session.run thread).2.settings = after := by
  obtain ⟨count, hcount⟩ := session.exists_steps thread
  have hend := h.steps count
  rw [hcount] at hend
  cases hend
  rfl

/-! ## Composition -/

theorem bind {before between after : Settings E} {session : Session E α}
    {next : α → Session E β} (h : Orderly before between session)
    (hnext : ∀ value, Orderly between after (next value)) :
    Orderly before after (session.bind next) := by
  induction h with
  | done _ value => exact hnext value
  | note call _ ih => exact .note call (ih hnext)
  | collect systemId _ ih => exact .collect systemId fun collector => ih collector hnext
  | collected collector _ ih => exact .collected collector fun state => ih state hnext
  | install collector hfree _ ih => exact .install collector hfree (ih hnext)
  | uninstall _ ih => exact .uninstall (ih hnext)
  | report channel notice hcontext _ ih => exact .report channel notice hcontext (ih hnext)
  | enter resolution _ ih => exact .enter resolution (ih hnext)
  | restore previous _ ih => exact .restore previous (ih hnext)
  | fetch url publicId _ ih => exact .fetch url publicId fun entity => ih entity hnext

theorem within {settings : Settings E} (resolution : Option (Resolution E))
    {body : Session E α}
    (h : ∀ resolution, Orderly { settings with resolution } { settings with resolution } body) :
    Orderly settings settings (within resolution body) := by
  cases resolution with
  | none => exact h settings.resolution
  | some resolution =>
      exact .enter resolution ((h (some resolution)).bind fun value =>
        .restore settings.resolution (.done settings value))

end Orderly

theorem Passive.orderly {session : Session E α} (h : Passive session) (settings : Settings E) :
    Orderly settings settings session := by
  induction h with
  | done value => exact .done settings value
  | note call _ ih => exact .note call ih
  | report channel notice _ ih => exact .report channel notice (.inl rfl) ih
  | fetch url publicId _ ih => exact .fetch url publicId ih

theorem orderly_follow {settings : Settings E} {collector : Nat}
    (hsettings : settings.handler = some collector) (call : Run E.Entity α) :
    Orderly settings settings (follow (some collector) call) := by
  induction call with
  | done value => exact .done settings value
  | report channel notice next ih => exact .report channel notice (.inr hsettings.symm) ih
  | fetch url publicId next ih => exact .note _ (.fetch url publicId ih)

/-- What is enclosed keeps the collector that it is enclosed for. -/
theorem Enclosed.orderly {body : Nat → Session E α} (h : Enclosed body) {settings : Settings E}
    {collector : Nat} (hsettings : settings.handler = some collector) :
    Orderly settings settings (body collector) := by
  induction h generalizing settings with
  | passive h => exact h.orderly settings
  | follow call => exact orderly_follow hsettings call
  | bind _ _ ih ihnext => exact (ih hsettings).bind fun value => ihnext value hsettings
  | within resolution _ ih => exact .within resolution fun _ => ih hsettings

/-- A session made of brackets, on a thread without a handler, leaves the thread as it was. -/
theorem Bracketed.orderly {session : Session E α} (h : Bracketed session) {settings : Settings E}
    (hsettings : settings.handler = none) : Orderly settings settings session := by
  induction h generalizing settings with
  | passive h => exact h.orderly settings
  | capturing systemId h =>
      refine .collect systemId fun collector => .install collector hsettings ?_
      refine (h.orderly rfl).bind fun value => .uninstall (.collected collector fun state => ?_)
      obtain ⟨handler, resolution⟩ := settings
      cases hsettings
      exact .done _ _
  | within resolution _ ih => exact .within resolution fun _ => ih hsettings
  | bind _ _ ih ihnext => exact (ih hsettings).bind fun value => ihnext value hsettings

end Session

end Conformance
