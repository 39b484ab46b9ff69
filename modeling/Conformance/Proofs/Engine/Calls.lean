import Conformance.Proofs.Engine.Collecting

/-!
# What an attempt calls and what it comes to

An attempt is described by the calls that it makes and by its outcome; one that runs in a bracket
also by the notices that the collector of the bracket takes. All three depend on the resolution
that it starts under and on nothing else of its thread.

* `Run.calls`, `Run.heard` : what a single call to the engine brings about;
* `Thread.Called` : what calls leave on a thread;
* `Attempt.Hears` : the attempts in a bracket, and `Attempt.Does` : all others, both closed under
  sequence, with `Hears.capturing` from the one to the other;
* `Does.run_iff` : a relation that covers all cases says exactly what an attempt does;
* `Attempt.LoadsCatalog`, `Attempt.Parses` : the stages that all validators have.
-/

namespace Conformance

variable {E : Engine} {α β : Type} {resolution : Option (Resolution E)}

/-! ## Calls to the engine -/

namespace Run

/-- The calls that are made in the course of one, in order: each entity that is asked for, and what
comes of it under a resolution. -/
def calls (resolution : Option (Resolution E)) : Run E.Entity α → List Call
  | .done _ => []
  | .report _ _ next => next.calls resolution
  | .fetch url publicId next =>
    .load url publicId :: ((Thread.under resolution).fetch url publicId).2.journal ++
      (next (E.find resolution url publicId)).calls resolution

/-- What is heard of a call while a collector is installed, in order. Without a context, what is
reported to one is lost. -/
def heard {Entity : Type} (find : Option RawText → Option RawText → Option Entity)
    (context : Option Nat) : Run Entity α → List Notice
  | .done _ => []
  | .report channel notice next =>
    (if channel = .context ∧ context = none then [] else [notice]) ++ next.heard find context
  | .fetch url publicId next => (next (find url publicId)).heard find context

/-- In a context everything is heard. -/
theorem heard_some {Entity : Type} (find : Option RawText → Option RawText → Option Entity)
    (collector : Nat) (call : Run Entity α) :
    call.heard find (some collector) = call.notices find := by
  induction call with
  | done value => rfl
  | report channel notice next ih => simp [heard, notices, ih]
  | fetch url publicId next ih => exact ih _

end Run

/-! ## Threads -/

namespace Thread

/-- What calls leave on a thread: they are in its journal, and the collector that is installed took
the notices. -/
structure Called (before : Thread E) (calls : List Call) (notices : List Notice)
    (after : Thread E) : Prop where
  handler : after.handler = before.handler
  resolution : after.resolution = before.resolution
  journal : after.journal = before.journal ++ calls
  collectors : ∀ {collector : Nat}, before.handler = some collector →
    after.collectors = before.collectors.modify collector fun state =>
      notices.foldl Collector.receive state

namespace Called

theorem refl (thread : Thread E) : thread.Called [] [] thread where
  handler := rfl
  resolution := rfl
  journal := (List.append_nil _).symm
  collectors _ := (List.modify_id _ thread.collectors).symm

theorem trans {before between after : Thread E} {calls calls' : List Call}
    {notices notices' : List Notice} (h : before.Called calls notices between)
    (h' : between.Called calls' notices' after) :
    before.Called (calls ++ calls') (notices ++ notices') after where
  handler := h'.handler.trans h.handler
  resolution := h'.resolution.trans h.resolution
  journal := by rw [h'.journal, h.journal, List.append_assoc]
  collectors hhandler := by
    rw [h'.collectors (h.handler.trans hhandler), h.collectors hhandler, List.modify_modify_eq]
    simp only [Function.comp_def, List.foldl_append]

end Called

theorem called_note (thread : Thread E) (calls : List Call) :
    thread.Called calls [] (thread.note calls) where
  handler := rfl
  resolution := rfl
  journal := rfl
  collectors _ := (List.modify_id _ thread.collectors).symm

theorem called_fetch (thread : Thread E) (url publicId : Option RawText) :
    thread.Called ((Thread.under thread.resolution).fetch url publicId).2.journal []
      (thread.fetch url publicId).2 :=
  thread.called_note _

/-- A notice that is given no context, or the collector that is installed. -/
theorem called_report {thread : Thread E} {context : Option Nat} (channel : Channel)
    (notice : Notice) (hcontext : context = none ∨ context = thread.handler) :
    thread.Called [] (if channel = .context ∧ context = none then [] else [notice])
      (thread.report context channel notice) where
  handler := thread.report_handler context channel notice
  resolution := thread.report_resolution context channel notice
  journal := (thread.report_journal context channel notice).trans (List.append_nil _).symm
  collectors hhandler := by
    rw [report_collectors hcontext hhandler]
    split
    · exact (List.modify_id _ thread.collectors).symm
    · rfl

end Thread

namespace Session

/-- A call that is given no context, or the collector that is installed. -/
theorem called_follow {context : Option Nat} (call : Run E.Entity α) {thread : Thread E}
    (hcontext : context = none ∨ context = thread.handler) :
    thread.Called (call.calls thread.resolution) (call.heard (E.find thread.resolution) context)
      ((follow context call).run thread).2 := by
  induction call generalizing thread with
  | done value => exact .refl thread
  | report channel notice next ih =>
      have hreport := Thread.called_report channel notice hcontext
      have hnext := hreport.trans (ih (hreport.handler.symm ▸ hcontext))
      rw [hreport.resolution] at hnext
      exact hnext
  | fetch url publicId next ih =>
      have hfetch := (thread.called_note [.load url publicId]).trans
        (Thread.called_fetch _ url publicId)
      exact hfetch.trans (ih _ hcontext)

/-- What a passive session leaves on a thread, and its value, depend on the resolution alone. -/
theorem Passive.exists_called {session : Session E α} (h : Passive session)
    (resolution : Option (Resolution E)) :
    ∃ value calls notices, ∀ thread : Thread E, thread.resolution = resolution →
      ∃ after, session.run thread = (value, after) ∧ thread.Called calls notices after := by
  induction h with
  | done value => exact ⟨value, [], [], fun thread _ => ⟨thread, rfl, .refl thread⟩⟩
  | note call _ ih =>
      obtain ⟨value, calls, notices, hrun⟩ := ih
      refine ⟨value, [call] ++ calls, notices, fun thread hthread => ?_⟩
      obtain ⟨after, hafter, hcalled⟩ := hrun (thread.note [call]) hthread
      exact ⟨after, hafter, (thread.called_note [call]).trans hcalled⟩
  | report channel notice _ ih =>
      obtain ⟨value, calls, notices, hrun⟩ := ih
      refine ⟨value, calls, (if channel = .context then [] else [notice]) ++ notices,
        fun thread hthread => ?_⟩
      have hreport := thread.called_report channel notice (.inl rfl)
      obtain ⟨after, hafter, hcalled⟩ := hrun _ (hreport.resolution.trans hthread)
      have hboth := hreport.trans hcalled
      simp only [and_true] at hboth
      exact ⟨after, hafter, hboth⟩
  | fetch url publicId _ ih =>
      obtain ⟨value, calls, notices, hrun⟩ := ih (E.find resolution url publicId)
      refine ⟨value, ((Thread.under resolution).fetch url publicId).2.journal ++ calls, notices,
        fun thread hthread => ?_⟩
      subst hthread
      have hfetch := thread.called_fetch url publicId
      obtain ⟨after, hafter, hcalled⟩ := hrun _ hfetch.resolution
      exact ⟨after, hafter, hfetch.trans hcalled⟩

end Session

/-- The document that an input is parsed as under a resolution, if it can be. -/
def Engine.parsed (E : Engine) (resolution : Option (Resolution E)) (input : Loaded) :
    Option E.Document :=
  if input.octets.length ≤ Attempt.sizeLimit ∧ hasNul input.systemId = false then
    (E.parse input.octets input.systemId).value (E.find resolution)
  else none

/-! ## Attempts -/

namespace Attempt

/-- On every thread under a resolution, an attempt makes these calls and has this outcome. -/
def Does (resolution : Option (Resolution E)) (attempt : Attempt E α) (calls : List Call)
    (outcome : Except ValidationError α) : Prop :=
  ∀ thread : Thread E, thread.resolution = resolution →
    ∃ after, attempt.outcome.run thread = (outcome, after) ∧ after.resolution = resolution ∧
      after.journal = thread.journal ++ calls

/-- On every thread under a resolution, with its collector installed, an attempt makes these calls,
has this outcome and lets the collector take these notices. -/
def Hears (resolution : Option (Resolution E)) (body : Nat → Attempt E α) (calls : List Call)
    (notices : List Notice) (outcome : Except ValidationError α) : Prop :=
  ∀ (thread : Thread E) (collector : Nat), thread.resolution = resolution →
    thread.handler = some collector →
      ∃ after, (body collector).outcome.run thread = (outcome, after) ∧
        thread.Called calls notices after

/-! ### Attempts in a bracket -/

theorem hears_ofExcept (outcome : Except ValidationError α) :
    Hears resolution (fun _ => ofExcept outcome) [] [] outcome :=
  fun thread _ _ _ => ⟨thread, rfl, .refl thread⟩

theorem hears_note (call : Call) :
    Hears resolution (fun _ => lift (.note call (.done ()))) [call] [] (.ok ()) :=
  fun thread _ _ _ => ⟨thread.note [call], rfl, thread.called_note [call]⟩

theorem hears_ensure_of_true {condition : Bool} (h : condition = true) (error : EngineError) :
    Hears resolution (fun _ => ensure condition error) [] [] (.ok ()) := by
  subst h
  exact hears_ofExcept _

theorem hears_ensure_of_false {condition : Bool} (h : condition = false) (error : EngineError) :
    Hears resolution (fun _ => ensure condition error) [] [] (.error error.toValidation) := by
  subst h
  exact hears_ofExcept _

theorem run_call {context : Option Nat} (call : Call) (run : Run E.Entity α) {thread : Thread E}
    (hcontext : context = none ∨ context = thread.handler) :
    ∃ after, (lift (.note call (Session.follow context run))).outcome.run thread =
        (.ok (run.value (E.find thread.resolution)), after) ∧
      thread.Called (call :: run.calls thread.resolution)
        (run.heard (E.find thread.resolution) context) after := by
  have hcalled := (thread.called_note [call]).trans (Session.called_follow run hcontext)
  refine ⟨((Session.follow context run).run (thread.note [call])).2, ?_, hcalled⟩
  rw [run_lift]
  exact Prod.ext (congrArg Except.ok (Session.run_follow context run _)) rfl

/-- A call that is given no context. -/
theorem hears_call (call : Call) (run : Run E.Entity α) :
    Hears resolution (fun _ => lift (.note call (Session.follow none run)))
      (call :: run.calls resolution) (run.heard (E.find resolution) none)
      (.ok (run.value (E.find resolution))) := by
  rintro thread collector rfl -
  exact run_call call run (.inl rfl)

/-- A call in the context of the collector. -/
theorem hears_call_context (call : Call) (run : Run E.Entity α) :
    Hears resolution (fun collector => lift (.note call (Session.follow (some collector) run)))
      (call :: run.calls resolution) (run.notices (E.find resolution))
      (.ok (run.value (E.find resolution))) := by
  rintro thread collector rfl hhandler
  rw [← Run.heard_some]
  exact run_call call run (.inr hhandler.symm)

/-- The calls that an attempt makes under a resolution. -/
def calls (attempt : Attempt E α) (resolution : Option (Resolution E)) : List Call :=
  (attempt.outcome.run (Thread.under resolution)).2.journal

theorem Passive.exists_called {attempt : Attempt E α} (h : attempt.Passive)
    (resolution : Option (Resolution E)) :
    ∃ notices, ∀ thread : Thread E, thread.resolution = resolution →
      ∃ after, attempt.outcome.run thread = (attempt.value resolution, after) ∧
        thread.Called (attempt.calls resolution) notices after := by
  obtain ⟨value, calls, notices, hrun⟩ := Session.Passive.exists_called h resolution
  obtain ⟨after, hafter, hcalled⟩ := hrun (Thread.under resolution) rfl
  have hvalue : attempt.value resolution = value := by rw [Attempt.value, hafter]
  have hcalls : attempt.calls resolution = calls := by
    rw [Attempt.calls, hafter]
    exact hcalled.journal
  rw [hvalue, hcalls]
  exact ⟨notices, hrun⟩

theorem Passive.hears {attempt : Attempt E α} (h : attempt.Passive)
    (resolution : Option (Resolution E)) :
    ∃ notices, Hears resolution (fun _ => attempt) (attempt.calls resolution) notices
      (attempt.value resolution) := by
  obtain ⟨notices, hrun⟩ := h.exists_called resolution
  exact ⟨notices, fun thread _ hthread _ => hrun thread hthread⟩

theorem Passive.does {attempt : Attempt E α} (h : attempt.Passive)
    (resolution : Option (Resolution E)) :
    Does resolution attempt (attempt.calls resolution) (attempt.value resolution) := by
  obtain ⟨_, hrun⟩ := h.exists_called resolution
  intro thread hthread
  obtain ⟨after, hafter, hcalled⟩ := hrun thread hthread
  exact ⟨after, hafter, hcalled.resolution.trans hthread, hcalled.journal⟩

/-- The calls of an attempt are those that it makes on any thread. -/
theorem Does.calls_eq {attempt : Attempt E α} {calls : List Call}
    {outcome : Except ValidationError α} (h : Does resolution attempt calls outcome) :
    attempt.calls resolution = calls := by
  obtain ⟨after, hrun, -, hjournal⟩ := h (Thread.under resolution) rfl
  rw [Attempt.calls, hrun]
  exact hjournal

namespace Hears

variable {calls calls' : List Call} {notices notices' : List Notice}

/-- What is heard of a passive attempt comes with its value. -/
theorem value_eq {attempt : Attempt E α} {outcome : Except ValidationError α}
    (h : Hears resolution (fun _ => attempt) calls notices outcome) (hpassive : attempt.Passive) :
    attempt.value resolution = outcome := by
  obtain ⟨after, hrun, -⟩ := h ((Thread.under resolution).install 0) 0 rfl rfl
  have hvalue := hpassive.run_fst ((Thread.under resolution).install 0)
  rw [hrun] at hvalue
  exact hvalue.symm

theorem bind {body : Nat → Attempt E α} {next : α → Nat → Attempt E β} {value : α}
    {outcome : Except ValidationError β} (h : Hears resolution body calls notices (.ok value))
    (hnext : Hears resolution (next value) calls' notices' outcome) :
    Hears resolution (fun collector => body collector >>= fun value => next value collector)
      (calls ++ calls') (notices ++ notices') outcome := by
  intro thread collector hthread hhandler
  obtain ⟨between, hrun, hcalled⟩ := h thread collector hthread hhandler
  obtain ⟨after, hrun', hcalled'⟩ := hnext between collector (hcalled.resolution.trans hthread)
    (hcalled.handler.trans hhandler)
  refine ⟨after, ?_, hcalled.trans hcalled'⟩
  rw [run_bind, hrun]
  exact hrun'

theorem bind_error {body : Nat → Attempt E α} {error : ValidationError}
    (h : Hears resolution body calls notices (.error error)) (next : α → Nat → Attempt E β) :
    Hears resolution (fun collector => body collector >>= fun value => next value collector)
      calls notices (.error error) := by
  intro thread collector hthread hhandler
  obtain ⟨after, hrun, hcalled⟩ := h thread collector hthread hhandler
  refine ⟨after, ?_, hcalled⟩
  rw [run_bind, hrun]

/-- What follows may be nothing but a conclusion. -/
theorem conclude {body : Nat → Attempt E α} {next : α → Nat → Attempt E β} {value : α}
    {outcome : Except ValidationError β} (h : Hears resolution body calls notices (.ok value))
    (hnext : next value = fun _ => ofExcept outcome) :
    Hears resolution (fun collector => body collector >>= fun value => next value collector) calls
      notices outcome := by
  have hend : Hears resolution (next value) [] [] outcome := hnext ▸ hears_ofExcept outcome
  have hboth := h.bind hend
  rw [List.append_nil, List.append_nil] at hboth
  exact hboth

/-- A resolution is in force in a bracket of its own. -/
theorem within {body : Nat → Attempt E α} {outcome : Except ValidationError α}
    (inner : Option (Resolution E)) (h : Hears (inner.or resolution) body calls notices outcome) :
    Hears resolution (fun collector => Attempt.within inner (body collector)) calls notices
      outcome := by
  cases inner with
  | none => exact h
  | some inner =>
      intro thread collector hthread hhandler
      obtain ⟨after, hrun, hcalled⟩ := h (thread.enter inner).2 collector rfl hhandler
      refine ⟨after.restore thread.resolution, ?_, hcalled.handler, rfl, hcalled.journal,
        hcalled.collectors⟩
      have hwithin := Session.run_bind (body collector).outcome
        (fun outcome => .restore thread.resolution (.done outcome)) (thread.enter inner).2
      rw [hrun] at hwithin
      exact hwithin

/-- A bracket makes a collector for what is heard in it. -/
theorem capturing {body : Nat → Attempt E α} {outcome : Except ValidationError α}
    (h : Hears resolution body calls notices outcome) (systemId : String) :
    Does resolution (Attempt.capturing systemId body) calls
      (.ok (outcome, notices.foldl Collector.receive (Collector.new systemId))) := by
  intro thread hthread
  have hcollected : (thread.collect systemId).2.collectors[thread.collectors.length]? =
      some (Collector.new systemId) := by
    simp [Thread.collect]
  obtain ⟨after, hrun, hcalled⟩ := h ((thread.collect systemId).2.install thread.collectors.length)
    thread.collectors.length hthread rfl
  have hheld : after.uninstall.collected thread.collectors.length =
      notices.foldl Collector.receive (Collector.new systemId) := by
    rw [Thread.collected, Thread.uninstall, hcalled.collectors rfl, Thread.install,
      List.getElem?_modify_eq, hcollected]
    rfl
  refine ⟨after.uninstall, ?_, hcalled.resolution.trans hthread, hcalled.journal⟩
  rw [run_capturing hrun, hheld]

end Hears

/-! ### Attempts in no bracket -/

theorem does_ofExcept {given outcome : Except ValidationError α} (h : given = outcome) :
    Does resolution (ofExcept given) [] outcome :=
  fun thread hthread => ⟨thread, congrArg (·, thread) h, hthread, (List.append_nil _).symm⟩

theorem does_note (call : Call) :
    Does resolution (lift (.note call (.done ()))) [call] (.ok ()) :=
  fun thread hthread => ⟨thread.note [call], rfl, hthread, rfl⟩

theorem does_ensure (condition : Bool) (error : EngineError) :
    Does resolution (ensure condition error) []
      (if condition then .ok () else .error error.toValidation) := by
  cases condition <;> exact does_ofExcept rfl

namespace Does

variable {calls calls' : List Call}

theorem bind {attempt : Attempt E α} {next : α → Attempt E β} {value : α}
    {outcome : Except ValidationError β} (h : Does resolution attempt calls (.ok value))
    (hnext : Does resolution (next value) calls' outcome) :
    Does resolution (attempt >>= next) (calls ++ calls') outcome := by
  intro thread hthread
  obtain ⟨between, hrun, hbetween, hjournal⟩ := h thread hthread
  obtain ⟨after, hrun', hafter, hjournal'⟩ := hnext between hbetween
  refine ⟨after, ?_, hafter, ?_⟩
  · rw [run_bind, hrun]
    exact hrun'
  · rw [hjournal', hjournal, List.append_assoc]

theorem bind_error {attempt : Attempt E α} {error : ValidationError}
    (h : Does resolution attempt calls (.error error)) (next : α → Attempt E β) :
    Does resolution (attempt >>= next) calls (.error error) := by
  intro thread hthread
  obtain ⟨after, hrun, hafter⟩ := h thread hthread
  refine ⟨after, ?_, hafter⟩
  rw [run_bind, hrun]

/-- What follows may be nothing but a conclusion. -/
theorem conclude {attempt : Attempt E α} {next : α → Attempt E β} {value : α}
    {outcome : Except ValidationError β} (h : Does resolution attempt calls (.ok value))
    (hnext : next value = ofExcept outcome) : Does resolution (attempt >>= next) calls outcome := by
  have hend : Does resolution (next value) [] outcome := hnext ▸ does_ofExcept rfl
  have hboth := h.bind hend
  rw [List.append_nil] at hboth
  exact hboth

/-- A resolution is in force in a bracket of its own. -/
theorem within {body : Attempt E α} {outcome : Except ValidationError α}
    (inner : Option (Resolution E)) (h : Does (inner.or resolution) body calls outcome) :
    Does resolution (Attempt.within inner body) calls outcome := by
  cases inner with
  | none => exact h
  | some inner =>
      intro thread hthread
      obtain ⟨after, hrun, -, hjournal⟩ := h (thread.enter inner).2 rfl
      refine ⟨after.restore thread.resolution, ?_, hthread, hjournal⟩
      have hwithin := Session.run_bind body.outcome
        (fun outcome => .restore thread.resolution (.done outcome)) (thread.enter inner).2
      rw [hrun] at hwithin
      exact hwithin

section

variable {attempt : Attempt E α} {R : List Call → Except ValidationError α → Prop}
  {thread : Thread E} {outcome : Except ValidationError α}

/-- If a relation holds of some calls and outcome, and of none but those of an attempt, then it
holds of exactly those. -/
theorem run_iff (hdoes : ∀ {calls outcome}, R calls outcome → Does resolution attempt calls outcome)
    (hexists : ∃ calls outcome, R calls outcome) (hthread : thread.resolution = resolution) :
    (∃ after, attempt.outcome.run thread = (outcome, after) ∧
      after.journal = thread.journal ++ calls) ↔ R calls outcome := by
  obtain ⟨calls', outcome', hR⟩ := hexists
  obtain ⟨after', hrun', -, hjournal'⟩ := hdoes hR thread hthread
  constructor
  · rintro ⟨after, hrun, hjournal⟩
    obtain ⟨rfl, rfl⟩ := Prod.mk.inj (hrun'.symm.trans hrun)
    rwa [List.append_cancel_left (hjournal.symm.trans hjournal')]
  · intro hR
    obtain ⟨after, hrun, -, hjournal⟩ := hdoes hR thread hthread
    exact ⟨after, hrun, hjournal⟩

theorem run_fst_iff
    (hdoes : ∀ {calls outcome}, R calls outcome → Does resolution attempt calls outcome)
    (hexists : ∃ calls outcome, R calls outcome) (hthread : thread.resolution = resolution) :
    (attempt.outcome.run thread).1 = outcome ↔ ∃ calls, R calls outcome := by
  constructor
  · rintro rfl
    obtain ⟨calls, outcome, hR⟩ := hexists
    obtain ⟨after, hrun, -⟩ := hdoes hR thread hthread
    rw [hrun]
    exact ⟨calls, hR⟩
  · rintro ⟨calls, hR⟩
    obtain ⟨after, hrun, -⟩ := hdoes hR thread hthread
    rw [hrun]

end

end Does

/-! ### Stages -/

/-- How the loading of a catalog ends. A path with a NUL is not passed on. -/
inductive LoadsCatalog (path : String) : List Call → Except ValidationError E.LoadedCatalog → Prop
  | unnamed (h : hasNul path = true) : LoadsCatalog path [] (.error (.catalog path))
  | missing (hpath : hasNul path = false) (h : E.loadCatalog path = none) :
      LoadsCatalog path [.catalog path] (.error (.catalog path))
  | loaded {catalog : E.LoadedCatalog} (hpath : hasNul path = false)
      (h : E.loadCatalog path = some catalog) : LoadsCatalog path [.catalog path] (.ok catalog)

theorem LoadsCatalog.does {path : String} {calls : List Call}
    {outcome : Except ValidationError E.LoadedCatalog} (h : LoadsCatalog path calls outcome) :
    Does resolution (loadCatalog path) calls outcome := by
  unfold loadCatalog
  cases h with
  | unnamed h =>
      rw [if_pos h]
      exact does_ofExcept rfl
  | missing hpath h =>
      rw [if_neg (by simp [hpath]), h]
      exact (does_note _).bind (does_ofExcept rfl)
  | loaded hpath h =>
      rw [if_neg (by simp [hpath]), h]
      exact (does_note _).bind (does_ofExcept rfl)

theorem exists_loadsCatalog (path : String) :
    ∃ calls outcome, LoadsCatalog (E := E) path calls outcome := by
  cases hpath : hasNul path with
  | true => exact ⟨_, _, .unnamed hpath⟩
  | false =>
      cases h : E.loadCatalog path with
      | none => exact ⟨_, _, .missing hpath h⟩
      | some catalog => exact ⟨_, _, .loaded hpath h⟩

/-- How the parsing of an input ends, and what is heard of it. One that is too large, or whose name
has a NUL, is not passed on. -/
inductive Parses (resolution : Option (Resolution E)) (input : Loaded) :
    List Call → List Notice → Except ValidationError (Option E.Document) → Prop
  | tooLarge (h : sizeLimit < input.octets.length) :
      Parses resolution input [] []
        (.error (EngineError.inputTooLarge input.octets.length).toValidation)
  | unnamed (hsize : input.octets.length ≤ sizeLimit) (h : hasNul input.systemId = true) :
      Parses resolution input [] [] (.error (EngineError.nulInText input.systemId).toValidation)
  | parsed {document : Option E.Document} (hsize : input.octets.length ≤ sizeLimit)
      (hname : hasNul input.systemId = false)
      (h : (E.parse input.octets input.systemId).value (E.find resolution) = document) :
      Parses resolution input
        (.parse input.systemId :: (E.parse input.octets input.systemId).calls resolution)
        ((E.parse input.octets input.systemId).heard (E.find resolution) none) (.ok document)

theorem Parses.hears {input : Loaded} {calls : List Call} {notices : List Notice}
    {outcome : Except ValidationError (Option E.Document)}
    (h : Parses resolution input calls notices outcome) :
    Hears resolution (fun _ => parse input.octets input.systemId) calls notices outcome := by
  cases h with
  | tooLarge h => exact (hears_ensure_of_false (by simpa using h) _).bind_error _
  | unnamed hsize h =>
      refine (hears_ensure_of_true (by simpa using hsize) _).bind ?_
      exact (hears_ensure_of_false (by simpa using h) _).bind_error _
  | parsed hsize hname h =>
      subst h
      refine (hears_ensure_of_true (by simpa using hsize) _).bind ?_
      refine (hears_ensure_of_true (by simpa using hname) _).bind ?_
      exact hears_call _ _

theorem exists_parses (resolution : Option (Resolution E)) (input : Loaded) :
    ∃ calls notices outcome, Parses resolution input calls notices outcome := by
  rcases Nat.lt_or_ge sizeLimit input.octets.length with h | hsize
  · exact ⟨_, _, _, .tooLarge h⟩
  · cases hname : hasNul input.systemId with
    | true => exact ⟨_, _, _, .unnamed hsize hname⟩
    | false => exact ⟨_, _, _, .parsed hsize hname rfl⟩

theorem exists_parses_iff {input : Loaded} {document : E.Document} :
    (∃ calls notices, Parses resolution input calls notices (.ok (some document))) ↔
      E.parsed resolution input = some document := by
  unfold Engine.parsed
  constructor
  · rintro ⟨_, _, h⟩
    cases h with
    | parsed hsize hname h => rw [if_pos ⟨hsize, hname⟩, h]
  · intro h
    split at h
    · next hpassable => exact ⟨_, _, .parsed hpassable.1 hpassable.2 h⟩
    · cases h

end Attempt

end Conformance
