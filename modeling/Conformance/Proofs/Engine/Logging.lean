import Conformance.Proofs.Engine.Inquiring

/-!
# What attempts leave in the log

Of what is heard in a bracket, the warnings go to the log, whatever becomes of the collector. So the
log after a bracket is known once it is known what is heard in it, and that depends on the resolution
and on nothing else of the thread.

* `Notice.warnings` : what notices leave in the log;
* `Session.heard`, `Attempt.heard` : what is heard in a bracket, with `Attempt.heard_bind` for one
  thing after another;
* `Session.ReportsTo` : the sessions that report to one collector alone, `ReportsTo.log_run` : their
  log;
* `Attempt.Logs` : what the body of a bracket leaves in the log, `Logs.capturing` : and the bracket;
* `Attempt.HeardFromReads` : the attempts of which nothing is heard but what is read.
-/

namespace Conformance

variable {E : Engine} {α β : Type} {resolution : Option (Resolution E)}

/-! ## Notices -/

namespace Notice

/-- What a notice leaves in the log, about the document of a system id. -/
def logged? (systemId : String) (notice : Notice) : Option LogRecord :=
  (notice.diagnostic? systemId).bind Diagnostic.logged?

/-- What notices leave in the log, in their order. -/
def warnings (systemId : String) (notices : List Notice) : List LogRecord :=
  notices.filterMap (logged? systemId)

theorem logged?_eq_none_iff {systemId : String} {notice : Notice} :
    notice.logged? systemId = none ↔ notice.level ≠ 1 := by
  unfold logged? diagnostic? severity?
  by_cases h1 : notice.level = 1
  · simp [h1, Diagnostic.logged?]
  · by_cases h2 : notice.level = 2
    · simp [h2, Diagnostic.logged?]
    · by_cases h3 : notice.level = 3 <;> simp [h1, h2, h3, Diagnostic.logged?]

theorem warnings_append (systemId : String) (notices notices' : List Notice) :
    warnings systemId (notices ++ notices') =
      warnings systemId notices ++ warnings systemId notices' :=
  List.filterMap_append

/-- Notices leave nothing in the log exactly if there is no warning among them. -/
theorem warnings_eq_nil_iff {systemId : String} {notices : List Notice} :
    warnings systemId notices = [] ↔ ∀ notice ∈ notices, notice.level ≠ 1 := by
  simp only [warnings, List.filterMap_eq_nil_iff, logged?_eq_none_iff]

end Notice

/-! ## Threads -/

namespace Thread

theorem log_deliver (thread : Thread E) (collector : Nat) (notice : Notice) :
    (thread.deliver collector notice).log =
      thread.log ++ (notice.logged? (thread.collected collector).systemId).toList := by
  unfold deliver Notice.logged?
  cases notice.diagnostic? (thread.collected collector).systemId with
  | none => exact (List.append_nil _).symm
  | some event => rfl

/-- A notice that is given no context, or the collector that is installed. -/
theorem log_report {thread : Thread E} {context : Option Nat} {collector : Nat}
    (hcontext : context = none ∨ context = some collector)
    (hhandler : thread.handler = some collector) (channel : Channel) (notice : Notice) :
    (thread.report context channel notice).log =
      thread.log ++ Notice.warnings (thread.collected collector).systemId
        (if channel = .context ∧ context = none then [] else [notice]) := by
  have hlog := thread.log_deliver collector notice
  have hone : Notice.warnings (thread.collected collector).systemId [notice] =
      (notice.logged? (thread.collected collector).systemId).toList := by
    rw [Notice.warnings, List.filterMap_cons]
    cases notice.logged? (thread.collected collector).systemId <;> rfl
  rw [← hone] at hlog
  rcases hcontext with rfl | rfl
  · cases channel with
    | thread => simpa [report, hhandler] using hlog
    | context => simp [report, Notice.warnings]
  · cases channel <;> simpa [report, hhandler] using hlog

theorem collected_report_systemId (thread : Thread E) (context : Option Nat) (channel : Channel)
    (notice : Notice) (collector : Nat) :
    ((thread.report context channel notice).collected collector).systemId =
      (thread.collected collector).systemId := by
  have hmodify (target : Nat) : ((thread.deliver target notice).collected collector).systemId =
      (thread.collected collector).systemId := by
    rw [collected, deliver_collectors, List.getElem?_modify, collected]
    cases thread.collectors[collector]? with
    | none => rfl
    | some state =>
        simp only [Option.map_eq_map, Option.map_some, Option.getD_some]
        split
        · exact state.receive_systemId notice
        · rfl
  simp only [report]
  split
  · exact hmodify _
  · rfl

end Thread

/-! ## Sessions -/

namespace Session

/-- What is heard of a session that runs in a bracket under a resolution. -/
def heard (resolution : Option (Resolution E)) : Session E α → List Notice
  | .note _ next => next.heard resolution
  | .report context channel notice next =>
    (if channel = .context ∧ context = none then [] else [notice]) ++ next.heard resolution
  | .fetch url publicId next => (next (E.find resolution url publicId)).heard resolution
  | _ => []

theorem heard_noting (calls : List Call) (session : Session E α) :
    (noting calls session).heard resolution = session.heard resolution := by
  induction calls with
  | nil => rfl
  | cons call calls ih => exact ih

theorem heard_follow (context : Option Nat) (call : Run E.Entity α) :
    (follow context call).heard resolution = call.heard (E.find resolution) context := by
  induction call with
  | done value => rfl
  | report channel notice next ih => exact congrArg (_ ++ ·) ih
  | fetch url publicId next ih => exact ih _

/-- A conclusion is not heard. -/
theorem heard_bind_done (session : Session E α) (conclude : α → β) :
    (session.bind fun value => .done (conclude value)).heard resolution =
      session.heard resolution := by
  induction session with
  | report context channel notice next ih => exact congrArg (_ ++ ·) ih
  | note call next ih => exact ih
  | fetch url publicId next ih => exact ih _
  | _ => rfl

theorem Passive.heard_bind {session : Session E α} (h : Passive session)
    (after : α → Session E β) :
    (session.bind after).heard resolution = session.heard resolution ++
      (after (session.run (Thread.under resolution)).1).heard resolution := by
  induction h with
  | done value => rfl
  | @note call next h ih =>
      have hvalue : ((Session.note call next).run (Thread.under resolution)).1 =
          (next.run (Thread.under resolution)).1 := h.run_fst_congr rfl
      rw [hvalue]
      exact ih
  | @report channel notice next h ih =>
      have hvalue : ((Session.report none channel notice next).run (Thread.under resolution)).1 =
          (next.run (Thread.under resolution)).1 :=
        h.run_fst_congr (Thread.report_resolution _ none channel notice)
      rw [hvalue, heard, List.append_assoc, ← ih]
      rfl
  | @fetch url publicId next h ih =>
      have hvalue : ((Session.fetch url publicId next).run (Thread.under resolution)).1 =
          ((next (E.find resolution url publicId)).run (Thread.under resolution)).1 :=
        (h _).run_fst_congr rfl
      rw [hvalue]
      exact ih _

/-- Sessions that do nothing but call the engine, and report to no collector but one. -/
inductive ReportsTo (collector : Nat) : Session E α → Prop where
  | done (value : α) : ReportsTo collector (.done value)
  | note (call : Call) {next : Session E α} (h : ReportsTo collector next) :
      ReportsTo collector (.note call next)
  | report {context : Option Nat} (hcontext : context = none ∨ context = some collector)
      (channel : Channel) (notice : Notice) {next : Session E α} (h : ReportsTo collector next) :
      ReportsTo collector (.report context channel notice next)
  | fetch (url publicId : Option RawText) {next : Option E.Entity → Session E α}
      (h : ∀ entity, ReportsTo collector (next entity)) :
      ReportsTo collector (.fetch url publicId next)

section

variable {collector : Nat}

theorem Passive.reportsTo {session : Session E α} (h : Passive session) :
    ReportsTo collector session := by
  induction h with
  | done value => exact .done value
  | note call _ ih => exact .note call ih
  | report channel notice _ ih => exact .report (.inl rfl) channel notice ih
  | fetch url publicId _ ih => exact .fetch url publicId ih

theorem reportsTo_follow (call : Run E.Entity α) :
    ReportsTo collector (follow (some collector) call) := by
  induction call with
  | done value => exact .done value
  | report channel notice next ih => exact .report (.inr rfl) channel notice ih
  | fetch url publicId next ih => exact .note _ (.fetch url publicId ih)

theorem ReportsTo.bind {session : Session E α} {after : α → Session E β}
    (h : ReportsTo collector session) (hafter : ∀ value, ReportsTo collector (after value)) :
    ReportsTo collector (session.bind after) := by
  induction h with
  | done value => exact hafter value
  | note call _ ih => exact .note call ih
  | report hcontext channel notice _ ih => exact .report hcontext channel notice ih
  | fetch url publicId _ ih => exact .fetch url publicId ih

/-- With the collector installed, the warnings among what is heard are logged, and no more. -/
theorem ReportsTo.log_run {session : Session E α} (h : ReportsTo collector session)
    {thread : Thread E} (hhandler : thread.handler = some collector) :
    (session.run thread).2.log = thread.log ++
      Notice.warnings (thread.collected collector).systemId (session.heard thread.resolution) := by
  induction h generalizing thread with
  | done value => exact (List.append_nil _).symm
  | note call _ ih => exact ih hhandler
  | @report context hcontext channel notice _ _ ih =>
      have hnext := ih ((thread.report_handler context channel notice).trans hhandler)
      rw [Thread.report_resolution, Thread.collected_report_systemId,
        Thread.log_report hcontext hhandler, List.append_assoc, ← Notice.warnings_append] at hnext
      exact hnext
  | fetch url publicId _ ih => exact ih _ hhandler

end

end Session

/-! ## Attempts -/

/-- What is heard while an input is parsed. One that cannot be passed on is not parsed. -/
def Engine.heardParsing (E : Engine) (resolution : Option (Resolution E)) (input : Loaded) :
    List Notice :=
  if input.octets.length ≤ Attempt.sizeLimit ∧ hasNul input.systemId = false then
    (E.parse input.octets input.systemId).heard (E.find resolution) none
  else []

/-- What is heard while the entity at a place, if there is one, is parsed. -/
def Engine.heardAt (E : Engine) (resolution : Option (Resolution E)) (place : String) :
    List Notice :=
  (E.openEntity (some (.ofString place)) none).elim [] fun entity =>
    (E.parseEntity entity place).heard (E.find resolution) none

namespace Attempt

/-- What is heard of an attempt that runs in a bracket under a resolution. -/
def heard (attempt : Attempt E α) (resolution : Option (Resolution E)) : List Notice :=
  attempt.outcome.heard resolution

theorem heard_bind {attempt : Attempt E α} (h : attempt.Passive) (next : α → Attempt E β) :
    (attempt >>= next).heard resolution = attempt.heard resolution ++
      match attempt.value resolution with
      | .ok value => (next value).heard resolution
      | .error _ => [] := by
  refine (Session.Passive.heard_bind h (ExceptT.bindCont next)).trans ?_
  rw [value, heard]
  rcases (attempt.outcome.run (Thread.under resolution)).1 with error | value <;> rfl

theorem heard_lift (session : Session E α) :
    (lift session).heard resolution = session.heard resolution :=
  Session.heard_bind_done session Except.ok

/-- What a condition stops is not heard. -/
theorem heard_ensure_bind (condition : Bool) (error : EngineError) (next : Unit → Attempt E α) :
    (ensure condition error >>= next).heard resolution =
      if condition then (next ()).heard resolution else [] := by
  cases condition <;> rfl

theorem heard_parse (input : Loaded) :
    (parse input.octets input.systemId : Attempt E (Option E.Document)).heard resolution =
      E.heardParsing resolution input := by
  refine (heard_ensure_bind _ _ _).trans ?_
  rw [Engine.heardParsing]
  by_cases hsize : input.octets.length ≤ sizeLimit
  · rw [if_pos (decide_eq_true hsize)]
    refine (heard_ensure_bind _ _ _).trans ?_
    cases hname : hasNul input.systemId with
    | true => simp
    | false =>
        rw [Bool.not_false, if_pos rfl, if_pos ⟨hsize, rfl⟩]
        exact (heard_lift _).trans (Session.heard_follow none _)
  · rw [if_neg (by simpa using hsize), if_neg fun h => hsize h.1]

theorem heard_read (url : String) :
    (read url : Attempt E (Option E.Document)).heard none =
      if hasNul url then [] else E.heardAt none url := by
  refine (heard_ensure_bind _ _ _).trans ?_
  cases hasNul url with
  | true => rfl
  | false =>
      rw [Bool.not_false, if_pos rfl, if_neg Bool.false_ne_true, Engine.heardAt,
        ← Engine.find_none]
      refine (heard_lift _).trans ?_
      simp only [Session.heard]
      cases E.find none (some (.ofString url)) none with
      | none => rfl
      | some entity => exact Session.heard_follow none _

/-! ### Brackets -/

/-- In a bracket under a resolution, a body logs the warnings among some notices, and no more. -/
def Logs (resolution : Option (Resolution E)) (body : Nat → Attempt E α) (notices : List Notice) :
    Prop :=
  ∀ (thread : Thread E) (collector : Nat), thread.resolution = resolution →
    thread.handler = some collector →
      ((body collector).outcome.run thread).2.log = thread.log ++
        Notice.warnings (thread.collected collector).systemId notices

theorem logs_of_reportsTo {body : Nat → Attempt E α} {notices : List Notice}
    (h : ∀ collector, (body collector).outcome.ReportsTo collector)
    (hheard : ∀ collector, (body collector).heard resolution = notices) :
    Logs resolution body notices := by
  rintro thread collector rfl hhandler
  rw [← hheard collector]
  exact (h collector).log_run hhandler

/-- A resolution is in force in a bracket of its own. -/
theorem Logs.within {body : Nat → Attempt E α} {notices : List Notice}
    (inner : Option (Resolution E)) (h : Logs (inner.or resolution) body notices) :
    Logs resolution (fun collector => Attempt.within inner (body collector)) notices := by
  cases inner with
  | none => exact h
  | some inner =>
      intro thread collector _ hhandler
      have hinner := h (thread.enter inner).2 collector rfl hhandler
      have hwithin := Session.run_bind (body collector).outcome
        (fun outcome => .restore thread.resolution (.done outcome)) (thread.enter inner).2
      exact (congrArg (·.2.log) hwithin).trans hinner

theorem Logs.capturing {body : Nat → Attempt E α} {notices : List Notice}
    (h : Logs resolution body notices) (systemId : String) {thread : Thread E}
    (hthread : thread.resolution = resolution) :
    ((Attempt.capturing systemId body).outcome.run thread).2.log =
      thread.log ++ Notice.warnings systemId notices := by
  have hbody := h ((thread.collect systemId).2.install thread.collectors.length)
    thread.collectors.length hthread rfl
  have hnew : (((thread.collect systemId).2.install thread.collectors.length).collected
      thread.collectors.length).systemId = systemId := by
    simp [Thread.collected, Thread.install, Thread.collect, Collector.new]
  rw [hnew] at hbody
  rw [run_capturing rfl]
  exact hbody

/-! ### What is read -/

theorem reads_bind {attempt : Attempt E α} {next : α → Attempt E β} (h : attempt.Passive)
    (hnext : ∀ value, (next value).Passive) :
    (attempt >>= next).reads resolution = attempt.reads resolution ++
      match attempt.value resolution with
      | .ok value => (next value).reads resolution
      | .error _ => [] := by
  rw [reads, calls_bind h hnext, List.filterMap_append, reads]
  cases attempt.value resolution <;> rfl

theorem AsksNothing.reads {attempt : Attempt E α} (h : attempt.AsksNothing) :
    attempt.reads none = [] := by
  rw [Attempt.reads, ← Call.filterMap_filter_asks fun _ => Call.read?_of_not_asks, ← Attempt.asks,
    h.asks, List.filterMap_nil]

/-- An attempt of which nothing is heard but what is heard where it reads. -/
structure HeardFromReads (attempt : Attempt E α) : Prop where
  passive : attempt.Passive
  heard : attempt.heard none = (attempt.reads none).flatMap (E.heardAt none)

theorem HeardFromReads.bind {attempt : Attempt E α} {next : α → Attempt E β}
    (h : attempt.HeardFromReads) (hnext : ∀ value, (next value).HeardFromReads) :
    (attempt >>= next).HeardFromReads where
  passive := h.passive.bind fun value => (hnext value).passive
  heard := by
    rw [heard_bind h.passive, reads_bind h.passive fun value => (hnext value).passive,
      List.flatMap_append, h.heard]
    cases attempt.value none with
    | error error => rfl
    | ok value => exact congrArg (_ ++ ·) (hnext value).heard

/-- Nothing is heard of calls of which nothing comes. -/
theorem heardFromReads_noting {attempt : Attempt E α} {calls : List Call}
    {outcome : Except ValidationError α}
    (h : attempt.outcome = Session.noting calls (.done outcome))
    (hcalls : calls.filterMap Call.read? = []) : attempt.HeardFromReads where
  passive := by
    rw [Passive, h]
    exact (Session.Passive.done outcome).noting calls
  heard := by
    have hjournal : attempt.calls none = calls := by
      rw [Attempt.calls, h, Session.run_noting]
      exact List.nil_append calls
    rw [Attempt.heard, h, Session.heard_noting, reads, hjournal, hcalls]
    rfl

theorem heardFromReads_pure (value : α) : (pure value : Attempt E α).HeardFromReads := by
  have hpure : (pure value : Attempt E α).outcome = Session.noting [] (.done (.ok value)) := rfl
  exact heardFromReads_noting hpure rfl

theorem heardFromReads_ensure (condition : Bool) (error : EngineError) :
    (ensure condition error : Attempt E Unit).HeardFromReads := by
  have hensure : (ensure condition error : Attempt E Unit).outcome = Session.noting []
      (.done (if condition then .ok () else .error error.toValidation)) := by
    cases condition <;> rfl
  exact heardFromReads_noting hensure rfl

theorem heardFromReads_buildUri (reference base : String) :
    (buildUri reference base : Attempt E (Option String)).HeardFromReads :=
  (heardFromReads_ensure _ _).bind fun _ => (heardFromReads_ensure _ _).bind fun _ =>
    heardFromReads_pure _

theorem heardFromReads_search (catalog : E.LoadedCatalog) (lookups : List Catalog.Lookup) :
    (lift (Session.search catalog lookups)).HeardFromReads := by
  have hlift : (lift (Session.search catalog lookups)).outcome =
      (Session.search catalog lookups).bind fun found => .done (.ok found) := rfl
  rw [Session.search_eq, Session.noting_bind] at hlift
  rw [Session.search_eq]
  refine heardFromReads_noting hlift (List.filterMap_eq_nil_iff.2 fun call hcall => ?_)
  obtain ⟨lookup, -, rfl⟩ := List.mem_map.1 hcall
  rfl

theorem Inquires.heardFromReads {document : E.Document} {attempt : Attempt E α}
    {inquiries : List (Inquiry E)} {value : α} (h : Inquires document attempt inquiries value) :
    attempt.HeardFromReads := by
  refine heardFromReads_noting h (List.filterMap_eq_nil_iff.2 fun call hcall => ?_)
  obtain ⟨inquiry, -, rfl⟩ := List.mem_map.1 hcall
  cases inquiry <;> rfl

theorem heardFromReads_read (url : String) :
    (read url : Attempt E (Option E.Document)).HeardFromReads where
  passive := passive_read url
  heard := by
    have hreads : (read url : Attempt E (Option E.Document)).reads none =
        if hasNul url then [] else [url] := by
      rw [reads, ← Call.filterMap_filter_asks fun _ => Call.read?_of_not_asks, ← asks, asks_read]
      cases hasNul url <;> rfl
    rw [heard_read, hreads]
    cases hasNul url <;> simp

end Attempt

end Conformance
