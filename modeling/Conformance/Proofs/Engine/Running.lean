import Conformance.Engine.Session

/-!
# Running sessions and attempts

What a composed session does to a thread, in terms of its parts.

* `Session.run_bind`, `Attempt.run_bind` : one thing after another;
* `Session.run_capturing`, `Attempt.run_capturing` : the collector of a bracket, as the body
  leaves it;
* `Session.noting` : calls of which nothing comes, before a session;
* `Engine.find` : the entity of a URL under a resolution, and `Run.notices` : what a call reports,
  once it is said how entities are found.
-/

namespace Conformance

variable {E : Engine} {α β : Type}

/-! ## Sessions -/

namespace Session

theorem run_bind (session : Session E α) (after : α → Session E β) (thread : Thread E) :
    (session.bind after).run thread = (after (session.run thread).1).run (session.run thread).2 := by
  induction session generalizing thread with
  | done value => rfl
  | note call next ih => exact ih _
  | collect systemId next ih => exact ih _ _
  | collected collector next ih => exact ih _ _
  | install collector next ih => exact ih _
  | uninstall next ih => exact ih _
  | report context channel notice next ih => exact ih _
  | enter resolution next ih => exact ih _ _
  | restore previous next ih => exact ih _
  | fetch url publicId next ih => exact ih _ _

/-- A bracket makes one collector, installs it for the body alone and hands it out as the body
leaves it. -/
theorem run_capturing {systemId : String} {body : Nat → Session E α} {thread : Thread E}
    {inside : α × Thread E}
    (h : (body thread.collectors.length).run
      ((thread.collect systemId).2.install thread.collectors.length) = inside) :
    (capturing systemId body).run thread =
      ((inside.1, inside.2.uninstall.collected thread.collectors.length), inside.2.uninstall) := by
  subst h
  simp only [capturing, run, run_bind]
  rfl

/-! ### Calls of which nothing comes -/

/-- A session with calls before it. -/
def noting (calls : List Call) (session : Session E α) : Session E α :=
  calls.foldr .note session

theorem noting_append (calls calls' : List Call) (session : Session E α) :
    noting (calls ++ calls') session = noting calls (noting calls' session) :=
  List.foldr_append

theorem noting_bind (calls : List Call) (session : Session E α) (after : α → Session E β) :
    (noting calls session).bind after = noting calls (session.bind after) := by
  induction calls with
  | nil => rfl
  | cons call calls ih => exact congrArg (Session.note call) ih

theorem run_noting (calls : List Call) (session : Session E α) (thread : Thread E) :
    (noting calls session).run thread = session.run (thread.note calls) := by
  induction calls generalizing thread with
  | nil => rw [Thread.note, List.append_nil]; rfl
  | cons call calls ih =>
      refine (ih _).trans ?_
      rw [Thread.note, Thread.note, List.append_assoc]
      rfl

/-- A search makes its lookups, as far as they can be put to the catalog, and nothing else. -/
theorem search_eq (catalog : E.LoadedCatalog) (lookups : List Catalog.Lookup) :
    search catalog lookups = noting
      (((Catalog.consulted (E.ask catalog) lookups).filter fun lookup => !hasNul lookup.key).map
        Call.lookup) (.done (Catalog.search (E.ask catalog) lookups)) := by
  rw [noting, List.foldr_map]
  rfl

end Session

/-! ## Attempts -/

namespace Attempt

theorem run_ofExcept (outcome : Except ValidationError α) (thread : Thread E) :
    (ofExcept outcome : Attempt E α).outcome.run thread = (outcome, thread) := rfl

theorem run_lift (session : Session E α) (thread : Thread E) :
    (lift session).outcome.run thread = (.ok (session.run thread).1, (session.run thread).2) :=
  Session.run_bind session (pure ∘ Except.ok) thread

theorem run_bind (attempt : Attempt E α) (next : α → Attempt E β) (thread : Thread E) :
    (attempt >>= next).outcome.run thread =
      match attempt.outcome.run thread with
      | (.ok value, thread) => (next value).outcome.run thread
      | (.error error, thread) => (.error error, thread) := by
  refine (Session.run_bind attempt.outcome (ExceptT.bindCont next) thread).trans ?_
  rcases attempt.outcome.run thread with ⟨_ | _, _⟩ <;> rfl

/-- A conclusion leaves the thread as it is. -/
theorem run_conclude_snd {attempt : Attempt E α} {next : α → Attempt E β} {thread : Thread E}
    (h : ∀ value, ∃ outcome, next value = ofExcept outcome) :
    ((attempt >>= next).outcome.run thread).2 = (attempt.outcome.run thread).2 := by
  rw [run_bind]
  rcases attempt.outcome.run thread with ⟨error | value, after⟩
  · rfl
  · obtain ⟨outcome, hnext⟩ := h value
    simp only [hnext, run_ofExcept]

theorem run_ensure (condition : Bool) (error : EngineError) (thread : Thread E) :
    (ensure condition error : Attempt E Unit).outcome.run thread =
      (if condition then .ok () else .error error.toValidation, thread) := by
  cases condition <;> rfl

theorem run_capturing {systemId : String} {body : Nat → Attempt E α} {thread : Thread E}
    {inside : Except ValidationError α × Thread E}
    (h : (body thread.collectors.length).outcome.run
      ((thread.collect systemId).2.install thread.collectors.length) = inside) :
    (capturing systemId body).outcome.run thread =
      (.ok (inside.1, inside.2.uninstall.collected thread.collectors.length),
        inside.2.uninstall) := by
  have hrun : (Session.capturing systemId fun collector => (body collector).outcome).run thread = _ :=
    Session.run_capturing h
  rw [capturing, run_lift, hrun]

end Attempt

/-! ## Calls to the engine -/

/-- A thread on which nothing has happened but that a resolution is in force. -/
def Thread.under (resolution : Option (Resolution E)) : Thread E :=
  { (Thread.fresh : Thread E) with resolution }

/-- The entity of a URL and a public id under a resolution. -/
def Engine.find (E : Engine) (resolution : Option (Resolution E)) (url publicId : Option RawText) :
    Option E.Entity :=
  ((Thread.under resolution).fetch url publicId).1

theorem Thread.fetch_fst (thread : Thread E) (url publicId : Option RawText) :
    (thread.fetch url publicId).1 = E.find thread.resolution url publicId := rfl

/-- Without a resolution every URL stands for itself. -/
theorem Engine.find_none (url publicId : Option RawText) :
    E.find none url publicId = E.openEntity url publicId := by
  simp only [find, Thread.fetch, Thread.target, Thread.under]
  cases url.bind RawText.text? <;> rfl

namespace Run

variable {Entity : Type}

/-- What a call reports when entities are found in one way, in order. -/
def notices (find : Option RawText → Option RawText → Option Entity) : Run Entity α → List Notice
  | .done _ => []
  | .report _ notice next => notice :: next.notices find
  | .fetch url publicId next => (next (find url publicId)).notices find

end Run

end Conformance
