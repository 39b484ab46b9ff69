import Conformance.Proofs.Engine.Calls
import Conformance.Schema.Validator
import Mathlib.Tactic.SplitIfs

/-!
# Results of a validation

The result of a pass over a document, from what the engine reports in it and from its return code.

* `Validator.Accepts`, `Validator.refusal?` : when a pass over a document begins at all, and why it
  does not;
* `Validator.notices`, `Validator.code` : the two things that the engine says in it;
* `run_validate` : the result is what `conclude` makes of them.

## Main statements

* `validate_reports` : no notice of level 2 or 3 is lost, repeated or moved, and no other is kept;
  there is a result unless the engine gave up with nothing fatal reported;
* `ok_nil_only_of_zero_iff` : an empty result stands for a return code of zero unless the engine
  found the document invalid without reporting an error.
-/

namespace Conformance

namespace Schema

namespace Validator

variable {E : Engine}

/-! ## Passes -/

/-- What it takes for a pass over a document to begin. -/
structure Accepts (validator : Validator E) (document : Loaded) : Prop where
  small : document.octets.length ≤ Attempt.sizeLimit
  named : hasNul document.systemId = false
  context : E.canValidate validator.schema = true
  buffer : E.canBuffer document.octets = true

/-- What the engine does with a document. -/
def pass (validator : Validator E) (document : Loaded) : Run E.Entity Int32 :=
  E.stream validator.schema document.octets document.systemId

/-- What the engine reports in a pass over a document, in order. -/
def notices (validator : Validator E) (document : Loaded) (resolution : Option (Resolution E)) :
    List Notice :=
  (validator.pass document).notices (E.find resolution)

/-- The return code of a pass over a document. -/
def code (validator : Validator E) (document : Loaded) (resolution : Option (Resolution E)) :
    Int32 :=
  (validator.pass document).value (E.find resolution)

/-- A pass gives its return code, and the collector takes what is reported in it. -/
theorem Accepts.hears_stream {validator : Validator E} {document : Loaded}
    (h : validator.Accepts document) (resolution : Option (Resolution E)) :
    Attempt.Hears resolution (fun collector => Attempt.stream collector validator.schema document)
      (.stream document.systemId :: (validator.pass document).calls resolution)
      (validator.notices document resolution) (.ok (validator.code document resolution)) := by
  refine (Attempt.hears_ensure_of_true (by simpa using h.small) _).bind ?_
  refine (Attempt.hears_ensure_of_true (by simpa using h.named) _).bind ?_
  refine (Attempt.hears_ensure_of_true h.context _).bind ?_
  refine (Attempt.hears_ensure_of_true h.buffer _).bind ?_
  exact Attempt.hears_call_context _ (validator.pass document)

/-- Why a pass over a document does not begin, if it does not. -/
def refusal? (validator : Validator E) (document : Loaded) : Option EngineError :=
  if Attempt.sizeLimit < document.octets.length then some (.inputTooLarge document.octets.length)
  else if hasNul document.systemId then some (.nulInText document.systemId)
  else if !E.canValidate validator.schema then some .noValidationContext
  else if !E.canBuffer document.octets then some .outOfMemory
  else none

theorem accepts_of_refusal?_eq_none {validator : Validator E} {document : Loaded}
    (h : validator.refusal? document = none) : validator.Accepts document := by
  unfold refusal? at h
  split_ifs at h with hsize hnul hcontext hbuffer
  exact ⟨Nat.le_of_not_lt hsize, by simpa using hnul, by simpa using hcontext,
    by simpa using hbuffer⟩

/-- A pass that is refused ends in an error before it begins. -/
theorem run_stream_of_refusal? {validator : Validator E} {document : Loaded} {error : EngineError}
    (h : validator.refusal? document = some error) (collector : Nat) (thread : Thread E) :
    (Attempt.stream collector validator.schema document).outcome.run thread =
      (.error error.toValidation, thread) := by
  simp only [Attempt.stream, Attempt.ensureSize, Attempt.ensurePassable, Attempt.run_bind,
    Attempt.run_ensure]
  unfold refusal? at h
  split_ifs at h with hsize hnul hcontext hbuffer <;> cases h
  · simp [Nat.not_le.2 hsize]
  · simp [Nat.le_of_not_lt hsize, hnul]
  · have hsmall := Nat.le_of_not_lt hsize
    simp_all
  · have hsmall := Nat.le_of_not_lt hsize
    simp_all

/-! ## The result of a pass -/

/-- The collector at the end of a pass. -/
def found (validator : Validator E) (document : Loaded) (resolution : Option (Resolution E)) :
    Collector where
  systemId := document.systemId
  violations := ((validator.notices document resolution).filter Notice.isViolation).map
    fun notice => ⟨notice.location document.systemId, notice.text⟩
  fatalSeen := (validator.notices document resolution).any fun notice => notice.level = 3

/-- The collector of a pass ends up with what is reported in it. -/
theorem Accepts.run_capturing {validator : Validator E} {document : Loaded}
    (h : validator.Accepts document) (thread : Thread E) :
    ∃ after, (Attempt.capturing document.systemId fun collector =>
        Attempt.stream collector validator.schema document).outcome.run thread =
      (.ok (.ok (validator.code document thread.resolution),
        validator.found document thread.resolution), after) := by
  have hfound : (validator.notices document thread.resolution).foldl Collector.receive
      (Collector.new document.systemId) = validator.found document thread.resolution := by
    rw [Collector.foldl_receive]
    rfl
  have hcapturing := (h.hears_stream thread.resolution).capturing document.systemId
  obtain ⟨after, hrun, -⟩ := hcapturing thread rfl
  rw [hfound] at hrun
  exact ⟨after, hrun⟩

theorem run_validate {validator : Validator E} {files : Files} {document : Source}
    {loaded : Loaded} (hload : document.load files = .ok loaded) (h : validator.Accepts loaded)
    (thread : Thread E) :
    ((validator.validate files document).outcome.run thread).1 =
      conclude (validator.found loaded thread.resolution)
        (.ofCode (validator.code loaded thread.resolution)) := by
  obtain ⟨after, hcaptured⟩ := h.run_capturing thread
  unfold validate
  simp only [Attempt.run_bind, Attempt.run_ofExcept, hload, hcaptured]

theorem run_validate_of_refusal? {validator : Validator E} {files : Files} {document : Source}
    {loaded : Loaded} {error : EngineError} (hload : document.load files = .ok loaded)
    (h : validator.refusal? loaded = some error) (thread : Thread E) :
    ((validator.validate files document).outcome.run thread).1 = .error error.toValidation := by
  have hstream := run_stream_of_refusal? h thread.collectors.length
    ((thread.collect loaded.systemId).2.install thread.collectors.length)
  have hcaptured : (Attempt.capturing loaded.systemId fun collector =>
      Attempt.stream collector validator.schema loaded).outcome.run thread = _ :=
    Attempt.run_capturing hstream
  unfold validate
  simp only [Attempt.run_bind, Attempt.run_ofExcept, hload, hcaptured]

theorem run_validate_of_not_accepts {validator : Validator E} {files : Files} {document : Source}
    {loaded : Loaded} (hload : document.load files = .ok loaded) (h : ¬ validator.Accepts loaded)
    (thread : Thread E) :
    ∃ error, ((validator.validate files document).outcome.run thread).1 = .error error := by
  cases hrefusal : validator.refusal? loaded with
  | none => exact absurd (accepts_of_refusal?_eq_none hrefusal) h
  | some error => exact ⟨_, run_validate_of_refusal? hload hrefusal thread⟩

theorem nonneg_iff (code : Int32) : 0 ≤ code ↔ code = 0 ∨ 0 < code := by
  rw [Int32.le_iff_toInt_le, Int32.lt_iff_toInt_lt, ← Int32.toInt_inj]
  have hzero : (0 : Int32).toInt = 0 := rfl
  omega

/-- Unless the engine gave up before anything fatal, what was collected is the result. -/
theorem conclude_ofCode (collector : Collector) (code : Int32) :
    conclude collector (.ofCode code) =
      if 0 ≤ code ∨ collector.fatalSeen then .ok collector.violations
      else .error (EngineError.validationAborted code collector.systemId).toValidation := by
  unfold Verdict.ofCode
  by_cases h0 : code = 0
  · rw [if_pos h0, if_pos (Or.inl ((nonneg_iff code).2 (Or.inl h0)))]
    rfl
  · rw [if_neg h0]
    by_cases h1 : 0 < code
    · rw [if_pos h1, if_pos (Or.inl ((nonneg_iff code).2 (Or.inr h1)))]
      rfl
    · have hneg : ¬ 0 ≤ code := fun h => ((nonneg_iff code).1 h).elim h0 h1
      rw [if_neg h1]
      simp only [conclude, hneg, false_or]

/-- The result of a pass is empty if the engine did not give up and reported no error. -/
theorem run_validate_eq_ok_nil {validator : Validator E} {files : Files} {document : Source}
    {loaded : Loaded} (hload : document.load files = .ok loaded) (h : validator.Accepts loaded)
    (thread : Thread E) :
    ((validator.validate files document).outcome.run thread).1 = .ok [] ↔
      0 ≤ validator.code loaded thread.resolution ∧
        ∀ notice ∈ validator.notices loaded thread.resolution, notice.isViolation = false := by
  have hnil : (validator.found loaded thread.resolution).violations = [] ↔
      ∀ notice ∈ validator.notices loaded thread.resolution, notice.isViolation = false := by
    simp [found]
  have hfatal : (validator.found loaded thread.resolution).fatalSeen = true →
      (validator.found loaded thread.resolution).violations ≠ [] := by
    intro hseen hempty
    obtain ⟨notice, hmem, hlevel⟩ := List.any_eq_true.1 hseen
    have hnone := hnil.1 hempty notice hmem
    simp only [decide_eq_true_eq] at hlevel
    simp [Notice.isViolation, hlevel] at hnone
  rw [run_validate hload h, conclude_ofCode, ← hnil]
  by_cases hcode : 0 ≤ validator.code loaded thread.resolution
  · simp [hcode]
  · by_cases hseen : (validator.found loaded thread.resolution).fatalSeen = true
    · simp [hcode, hseen, hfatal hseen]
    · simp [hcode, hseen]

/-- The result of a validation, from what is read of the document and from what the engine says in
the pass over it. -/
theorem value_validate (validator : Validator E) (files : Files) (document : Source) :
    (validator.validate files document).value none =
      match document.load files with
      | .error error => .error error
      | .ok loaded =>
        match validator.refusal? loaded with
        | some error => .error error.toValidation
        | none =>
          conclude (validator.found loaded none) (.ofCode (validator.code loaded none)) := by
  cases hload : document.load files with
  | error error =>
      unfold validate Attempt.value
      simp only [Attempt.run_bind, Attempt.run_ofExcept, hload]
  | ok loaded =>
      cases hrefusal : validator.refusal? loaded with
      | none =>
          have hrun := run_validate hload (accepts_of_refusal?_eq_none hrefusal) (Thread.under none)
          simp only [hrefusal]
          exact hrun
      | some error =>
          simp only [hrefusal]
          exact run_validate_of_refusal? hload hrefusal (Thread.under none)

/-! ## Engines that do the same with every document -/

/-- The engine whose passes are all one run. It does nothing else. -/
def uniform (run : Run Unit Int32) : Engine where
  LoadedCatalog := Unit
  Entity := Unit
  Document := Unit
  Node := Unit
  Schema := Unit
  Stylesheet := Unit
  loadCatalog _ := none
  answer _ _ := none
  buildUri _ _ := none
  openEntity _ _ := none
  parse _ _ := .done none
  parseEntity _ _ := .done none
  opensXPath _ := false
  registers _ _ _ := false
  select _ _ := none
  evaluate _ _ _ := none
  compileSchema _ := none
  canValidate _ := true
  canBuffer _ := true
  stream _ _ _ := run
  compileStylesheet _ := .done none
  apply _ _ := .done none
  library := []
  mem_library := by intro _ _ h; cases h

/-- A system without files. -/
def noFiles : Files where
  lookup _ := .error .notFound
  userDirectory := none

theorem accepts_uniform (run : Run Unit Int32) (schemaId : String) {document : Loaded}
    (hsmall : document.octets.length ≤ Attempt.sizeLimit)
    (hnamed : hasNul document.systemId = false) :
    Accepts (E := uniform run) ⟨(), schemaId⟩ document :=
  ⟨hsmall, hnamed, rfl, rfl⟩

/-! ## Nothing lost, nothing added -/

/-- The result of a validation: one violation for each notice of level 2 or 3, in the order in
which they were reported, on either channel; unless the return code is negative and no notice was
of level 3. -/
theorem validate_reports {validator : Validator E} {files : Files} {document : Source}
    {loaded : Loaded} (hload : document.load files = .ok loaded) (h : validator.Accepts loaded)
    (thread : Thread E) :
    ((validator.validate files document).outcome.run thread).1 =
      if 0 ≤ validator.code loaded thread.resolution ∨
          ∃ notice ∈ validator.notices loaded thread.resolution, notice.level = 3 then
        .ok (((validator.notices loaded thread.resolution).filter fun notice =>
            notice.level = 2 ∨ notice.level = 3).map fun notice =>
          { location := (notice.file.bind RawText.text?).getD loaded.systemId ++ ":" ++
              toString notice.line.toInt ++ ":" ++ toString notice.column.toInt
            message := trimmed ((notice.message.bind RawText.text?).getD "") })
      else
        .error (.engine ("Document validation failed with code " ++
          toString (validator.code loaded thread.resolution).toInt ++ ": " ++
          loaded.systemId)) := by
  have hfatal : (validator.found loaded thread.resolution).fatalSeen = true ↔
      ∃ notice ∈ validator.notices loaded thread.resolution, notice.level = 3 := by
    simp [found]
  rw [run_validate hload h, conclude_ofCode]
  simp only [hfatal]
  rfl

/-- A pass with a notice of each level, on both channels, after which the engine gives up. -/
def mixed : Run Unit Int32 :=
  .reporting
    [(.thread, ⟨1, none, 1, 1, some (.ofString "odd")⟩),
      (.context, ⟨2, some (.ofString "part.xml"), 3, 7, some (.ofString " wrong\n")⟩),
      (.thread, ⟨3, some ⟨[0xFF]⟩, 4, -1, none⟩),
      (.context, ⟨7, none, 5, 1, some (.ofString "unheard of")⟩)]
    (-1)

theorem validate_reports_mixed :
    ((validate (E := uniform mixed) ⟨(), "s.xsd"⟩ noFiles (.memory [] "doc.xml")).outcome.run
      Thread.fresh).1 = .ok [⟨"part.xml:3:7", "wrong"⟩, ⟨"doc.xml:4:-1", ""⟩] :=
  (validate_reports rfl (accepts_uniform mixed "s.xsd" (by decide) (by decide)) Thread.fresh).trans
    (by rfl)

/-! ## Empty results -/

/-- An empty result means a return code of zero exactly if the engine does not call the document
invalid in a pass in which it reports no error. -/
theorem ok_nil_only_of_zero_iff {validator : Validator E} {files : Files} {document : Source}
    {loaded : Loaded} (hload : document.load files = .ok loaded) (thread : Thread E) :
    (((validator.validate files document).outcome.run thread).1 = .ok [] →
        validator.code loaded thread.resolution = 0) ↔
      ¬ (validator.Accepts loaded ∧ 0 < validator.code loaded thread.resolution ∧
        ∀ notice ∈ validator.notices loaded thread.resolution,
          notice.level ≠ 2 ∧ notice.level ≠ 3) := by
  have hsilent : (∀ notice ∈ validator.notices loaded thread.resolution,
      notice.isViolation = false) ↔ ∀ notice ∈ validator.notices loaded thread.resolution,
        notice.level ≠ 2 ∧ notice.level ≠ 3 := by
    simp [Notice.isViolation]
  by_cases h : validator.Accepts loaded
  · rw [run_validate_eq_ok_nil hload h, hsilent, nonneg_iff]
    constructor
    · rintro hzero ⟨-, hpos, hnone⟩
      exact Int32.lt_irrefl (hzero ⟨Or.inr hpos, hnone⟩ ▸ hpos)
    · rintro hnot ⟨hzero | hpos, hnone⟩
      · exact hzero
      · exact absurd ⟨h, hpos, hnone⟩ hnot
  · obtain ⟨error, hrun⟩ := run_validate_of_not_accepts hload h thread
    rw [hrun]
    exact ⟨fun _ hall => h hall.1, fun _ hok => nomatch hok⟩

/-- A pass with nothing but a warning. -/
def warned (code : Int32) : Run Unit Int32 :=
  .reporting [(.context, ⟨1, none, 1, 1, none⟩)] code

theorem ok_nil_only_of_zero_warned :
    ((validate (E := uniform (warned 0)) ⟨(), "s.xsd"⟩ noFiles (.memory [] "doc.xml")).outcome.run
        Thread.fresh).1 = .ok [] ∧
      code (E := uniform (warned 0)) ⟨(), "s.xsd"⟩ ⟨[], "doc.xml"⟩ none = 0 := by
  have hrun : ((validate (E := uniform (warned 0)) ⟨(), "s.xsd"⟩ noFiles
      (.memory [] "doc.xml")).outcome.run Thread.fresh).1 = .ok [] := rfl
  exact ⟨hrun, (ok_nil_only_of_zero_iff rfl Thread.fresh).2
    (fun h => absurd h.2.1 (by decide)) hrun⟩

/-- A document that the engine calls invalid, with nothing but a warning, has an empty result. -/
theorem ok_nil_of_warning_alone :
    ((validate (E := uniform (warned 1)) ⟨(), "s.xsd"⟩ noFiles (.memory [] "doc.xml")).outcome.run
        Thread.fresh).1 = .ok [] ∧
      code (E := uniform (warned 1)) ⟨(), "s.xsd"⟩ ⟨[], "doc.xml"⟩ none = 1 :=
  ⟨rfl, rfl⟩

end Validator

end Schema

end Conformance
