import Conformance.Proofs.Engine.Running

/-!
# Passive sessions

A session is passive if all it does is to call the engine: it makes no collector, gives none to
the engine to report to, and changes neither the handler nor the resolution of the thread. What it
gives then depends on the resolution alone, so it can be computed away from the thread that it
runs on.

* `Session.Passive` : the sessions without brackets, closed under sequence (`Passive.bind`);
* `Passive.run_resolution` : the thread keeps its resolution;
* `Attempt.value` : what a passive attempt gives under a resolution, on any thread
  (`Attempt.run_fst`), with one equation for each call.
-/

namespace Conformance

variable {E : Engine} {α β : Type}

/-! ## Frames -/

namespace Thread

theorem deliver_resolution (thread : Thread E) (collector : Nat) (notice : Notice) :
    (thread.deliver collector notice).resolution = thread.resolution := by
  unfold deliver
  split <;> rfl

theorem deliver_handler (thread : Thread E) (collector : Nat) (notice : Notice) :
    (thread.deliver collector notice).handler = thread.handler := by
  unfold deliver
  split <;> rfl

theorem deliver_journal (thread : Thread E) (collector : Nat) (notice : Notice) :
    (thread.deliver collector notice).journal = thread.journal := by
  unfold deliver
  split <;> rfl

theorem report_resolution (thread : Thread E) (context : Option Nat) (channel : Channel)
    (notice : Notice) : (thread.report context channel notice).resolution = thread.resolution := by
  simp only [report]
  split
  · exact deliver_resolution thread _ notice
  · rfl

theorem report_handler (thread : Thread E) (context : Option Nat) (channel : Channel)
    (notice : Notice) : (thread.report context channel notice).handler = thread.handler := by
  simp only [report]
  split
  · exact deliver_handler thread _ notice
  · rfl

theorem report_journal (thread : Thread E) (context : Option Nat) (channel : Channel)
    (notice : Notice) : (thread.report context channel notice).journal = thread.journal := by
  simp only [report]
  split
  · exact deliver_journal thread _ notice
  · rfl

end Thread

/-! ## Passive sessions -/

namespace Session

/-- Sessions that do nothing but call the engine. -/
inductive Passive : Session E α → Prop where
  | done (value : α) : Passive (.done value)
  | note (call : Call) {next : Session E α} (h : Passive next) : Passive (.note call next)
  | report (channel : Channel) (notice : Notice) {next : Session E α} (h : Passive next) :
      Passive (.report none channel notice next)
  | fetch (url publicId : Option RawText) {next : Option E.Entity → Session E α}
      (h : ∀ entity, Passive (next entity)) : Passive (.fetch url publicId next)

namespace Passive

theorem bind {session : Session E α} {after : α → Session E β} (h : Passive session)
    (hafter : ∀ value, Passive (after value)) : Passive (session.bind after) := by
  induction h with
  | done value => exact hafter value
  | note call _ ih => exact .note call ih
  | report channel notice _ ih => exact .report channel notice ih
  | fetch url publicId _ ih => exact .fetch url publicId ih

theorem run_resolution {session : Session E α} (h : Passive session) (thread : Thread E) :
    (session.run thread).2.resolution = thread.resolution := by
  induction h generalizing thread with
  | done value => rfl
  | note call _ ih => exact ih _
  | report channel notice _ ih =>
      exact (ih _).trans (thread.report_resolution none channel notice)
  | fetch url publicId _ ih => exact ih _ _

/-- Threads of one resolution get the same from a passive session. -/
theorem run_fst_congr {session : Session E α} (h : Passive session) {thread thread' : Thread E}
    (hr : thread.resolution = thread'.resolution) :
    (session.run thread).1 = (session.run thread').1 := by
  induction h generalizing thread thread' with
  | done value => rfl
  | note call _ ih => exact ih hr
  | report channel notice _ ih =>
      apply ih
      rw [Thread.report_resolution, Thread.report_resolution, hr]
  | fetch url publicId _ ih =>
      simp only [run]
      rw [Thread.fetch_fst, Thread.fetch_fst, hr]
      exact ih _ hr

end Passive

theorem passive_follow (call : Run E.Entity α) : Passive (follow none call) := by
  induction call with
  | done value => exact .done value
  | report channel notice next ih => exact .report channel notice ih
  | fetch url publicId next ih => exact .note _ (.fetch url publicId ih)

theorem Passive.noting {session : Session E α} (h : Passive session) (calls : List Call) :
    Passive (noting calls session) := by
  induction calls with
  | nil => exact h
  | cons call calls ih => exact .note call ih

theorem passive_search (catalog : E.LoadedCatalog) (lookups : List Catalog.Lookup) :
    Passive (search catalog lookups) := by
  rw [search_eq]
  exact (Passive.done _).noting _

/-- The value of a call does not depend on where its notices go. -/
theorem run_follow (context : Option Nat) (call : Run E.Entity α) (thread : Thread E) :
    ((follow context call).run thread).1 = call.value (E.find thread.resolution) := by
  induction call generalizing thread with
  | done value => rfl
  | report channel notice next ih =>
      refine (ih _).trans ?_
      rw [Thread.report_resolution]
      rfl
  | fetch url publicId next ih => exact ih _ _

theorem run_search (catalog : E.LoadedCatalog) (lookups : List Catalog.Lookup)
    (thread : Thread E) :
    ((search catalog lookups).run thread).1 = Catalog.search (E.ask catalog) lookups := by
  rw [search_eq, run_noting]
  rfl

end Session

/-! ## Passive attempts -/

namespace Attempt

/-- Attempts that do nothing but call the engine. -/
def Passive (attempt : Attempt E α) : Prop :=
  attempt.outcome.Passive

theorem Passive.bind {attempt : Attempt E α} {next : α → Attempt E β} (h : attempt.Passive)
    (hnext : ∀ value, (next value).Passive) : (attempt >>= next).Passive := by
  refine Session.Passive.bind h fun outcome => ?_
  cases outcome with
  | ok value => exact hnext value
  | error error => exact .done _

theorem passive_pure (value : α) : (pure value : Attempt E α).Passive := .done _

theorem passive_throw (error : ValidationError) : (throw error : Attempt E α).Passive := .done _

theorem passive_lift {session : Session E α} (h : session.Passive) : (lift session).Passive :=
  Session.Passive.bind h fun _ => .done _

theorem passive_note (call : Call) : (lift (.note call (.done ())) : Attempt E Unit).Passive :=
  passive_lift (.note call (.done ()))

theorem passive_ensure (condition : Bool) (error : EngineError) :
    (ensure condition error : Attempt E Unit).Passive := by
  cases condition <;> exact .done _

theorem passive_loadCatalog (path : String) :
    (loadCatalog path : Attempt E E.LoadedCatalog).Passive := by
  unfold loadCatalog
  cases hasNul path with
  | true => exact passive_throw _
  | false =>
      refine (passive_note _).bind fun _ => ?_
      cases E.loadCatalog path with
      | none => exact passive_throw _
      | some catalog => exact passive_pure catalog

theorem passive_buildUri (reference base : String) :
    (buildUri reference base : Attempt E (Option String)).Passive :=
  (passive_ensure _ _).bind fun _ => (passive_ensure _ _).bind fun _ => passive_pure _

theorem passive_parse (octets : Octets) (url : String) :
    (parse octets url : Attempt E (Option E.Document)).Passive :=
  (passive_ensure _ _).bind fun _ => (passive_ensure _ _).bind fun _ =>
    passive_lift (.note _ (Session.passive_follow _))

theorem passive_read (url : String) : (read url : Attempt E (Option E.Document)).Passive := by
  refine (passive_ensure _ _).bind fun _ => passive_lift (.note _ (.fetch _ _ fun entity => ?_))
  cases entity with
  | none => exact .done none
  | some entity => exact Session.passive_follow _

theorem passive_compileStylesheet (document : E.Document) :
    (compileStylesheet document : Attempt E (Option E.Stylesheet)).Passive :=
  passive_lift (.note _ (Session.passive_follow _))

theorem passive_apply (stylesheet : E.Stylesheet) (document : E.Document) :
    (apply stylesheet document : Attempt E (Option E.Document)).Passive :=
  passive_lift (.note _ (Session.passive_follow _))

theorem passive_openXPath (document : E.Document) :
    (openXPath document : Attempt E Unit).Passive :=
  (passive_note _).bind fun _ => passive_ensure _ _

theorem passive_select (document : E.Document) (expression : String) :
    (select document expression : Attempt E (List E.Node)).Passive := by
  refine (passive_note _).bind fun _ => ?_
  cases E.select document expression with
  | none => exact passive_throw _
  | some nodes => exact passive_pure nodes

theorem passive_evaluate (document : E.Document) (node : Option E.Node) (expression : String) :
    (evaluate document node expression : Attempt E String).Passive := by
  refine (passive_note _).bind fun _ => ?_
  cases E.evaluate document node expression with
  | none => exact passive_throw _
  | some text => exact passive_pure _

/-! ### Values -/

/-- What an attempt gives under a resolution. -/
def value (attempt : Attempt E α) (resolution : Option (Resolution E)) :
    Except ValidationError α :=
  (attempt.outcome.run (Thread.under resolution)).1

/-- On whatever thread it runs, a passive attempt gives its value. -/
theorem Passive.run_fst {attempt : Attempt E α} (h : attempt.Passive) (thread : Thread E) :
    (attempt.outcome.run thread).1 = attempt.value thread.resolution :=
  h.run_fst_congr rfl

theorem value_lift (session : Session E α) (resolution : Option (Resolution E)) :
    (lift session).value resolution = .ok (session.run (Thread.under resolution)).1 := by
  rw [value, run_lift]

theorem value_bind {attempt : Attempt E α} {next : α → Attempt E β} (h : attempt.Passive)
    (hnext : ∀ value, (next value).Passive) (resolution : Option (Resolution E)) :
    (attempt >>= next).value resolution =
      attempt.value resolution >>= fun value => (next value).value resolution := by
  have hkept := Session.Passive.run_resolution h (Thread.under resolution)
  unfold value
  rw [run_bind]
  rcases hfirst : attempt.outcome.run (Thread.under resolution) with ⟨error | value, thread⟩
  · rfl
  · rw [hfirst] at hkept
    exact (hnext value).run_fst_congr hkept

theorem value_bind_eq_ok {attempt : Attempt E α} {next : α → Attempt E β} (h : attempt.Passive)
    (hnext : ∀ value, (next value).Passive) {resolution : Option (Resolution E)} {result : β} :
    (attempt >>= next).value resolution = .ok result ↔
      ∃ value, attempt.value resolution = .ok value ∧ (next value).value resolution = .ok result := by
  rw [value_bind h hnext]
  cases attempt.value resolution with
  | error error => exact ⟨fun h => (nomatch h), fun ⟨_, h, _⟩ => (nomatch h)⟩
  | ok value => exact ⟨fun h => ⟨value, rfl, h⟩, fun ⟨_, h, h'⟩ => by cases h; exact h'⟩

end Attempt

end Conformance
