import Conformance.Proofs.Engine.Loading
import Conformance.Proofs.Engine.Stepping

/-!
# Texts that are passed on

A text with a NUL is never passed on to an engine: a call fails for it, a lookup is left out and an
answer for an entity does not count. Here it is followed through sessions and attempts that none of
this happens.

* `Thread.Unhindered` : a load that leaves nothing out. It is so under every passable resolution
  (`Thread.unhindered`);
* `Session.EachLoad` : what is so at each load of a session, closed under sequence
  (`eachLoad_bind`), and at each moment when there is one (`EachLoad.steps`);
* `ValidationError.ForNul` : the failures for a text with a NUL, which no other failure is taken for
  (`not_forNul_toValidation`);
* `Attempt.Passes` : attempts with unhindered loads, with what is so of their values and of their
  errors, closed under sequence and brackets (`Passes.bind`, `Passes.capturing`, `Passes.within`),
  with one lemma for each call.
-/

namespace Conformance

variable {E : Engine} {α β : Type}

/-! ## Loads -/

namespace Thread

variable {thread : Thread E}

/-- Every lookup for a URL can be put to the catalog, and what is found can be passed on. -/
structure Unhindered (thread : Thread E) (url publicId : Option RawText) : Prop where
  asked : ∀ lookup ∈ thread.consulted url publicId, hasNul lookup.key = false
  found : ∀ {text answer : String} {resolution : Resolution E},
    url.bind RawText.text? = some text → thread.resolution = some resolution →
      resolution.redirect text (publicId.bind RawText.text?) = some answer → hasNul answer = false

theorem unhindered (h : ∀ resolution ∈ thread.resolution, resolution.Passable)
    (url publicId : Option RawText) : thread.Unhindered url publicId where
  asked lookup hlookup := by
    unfold consulted at hlookup
    split at hlookup
    · next text resolution hurl hresolution =>
        cases resolution with
        | redirects table => cases hlookup
        | catalog catalog =>
            exact Catalog.hasNul_uriLookups hurl lookup (Catalog.mem_of_mem_consulted hlookup)
    · cases hlookup
  found _ hresolution hanswer := (h _ hresolution).hasNul_redirect hanswer

end Thread

/-! ## Loads of a session -/

namespace Session

variable {P : Thread E → Option RawText → Option RawText → Prop} {thread : Thread E}

/-- What is so at each load of a session, of the thread at that moment and of what is asked for. -/
def EachLoad (P : Thread E → Option RawText → Option RawText → Prop) :
    Session E α → Thread E → Prop
  | .done _, _ => True
  | .note call next, thread => EachLoad P next (thread.note [call])
  | .collect systemId next, thread =>
    EachLoad P (next (thread.collect systemId).1) (thread.collect systemId).2
  | .collected collector next, thread => EachLoad P (next (thread.collected collector)) thread
  | .install collector next, thread => EachLoad P next (thread.install collector)
  | .uninstall next, thread => EachLoad P next thread.uninstall
  | .report context channel notice next, thread =>
    EachLoad P next (thread.report context channel notice)
  | .enter resolution next, thread =>
    EachLoad P (next (thread.enter resolution).1) (thread.enter resolution).2
  | .restore previous next, thread => EachLoad P next (thread.restore previous)
  | .fetch url publicId next, thread =>
    P thread url publicId ∧
      EachLoad P (next (thread.fetch url publicId).1) (thread.fetch url publicId).2

theorem EachLoad.step {session : Session E α} (h : session.EachLoad P thread) :
    (session.step thread).1.EachLoad P (session.step thread).2 := by
  cases session with
  | fetch url publicId next => exact h.2
  | _ => exact h

theorem EachLoad.steps {session : Session E α} (h : session.EachLoad P thread) {count : Nat}
    {url publicId : Option RawText} {next : Option E.Entity → Session E α} {now : Thread E}
    (hmoment : session.steps count thread = (.fetch url publicId next, now)) :
    P now url publicId := by
  induction count generalizing session thread with
  | zero =>
      cases hmoment
      exact h.1
  | succ count ih => exact ih h.step hmoment

theorem eachLoad_bind {session : Session E α} {after : α → Session E β} :
    (session.bind after).EachLoad P thread ↔ session.EachLoad P thread ∧
      (after (session.run thread).1).EachLoad P (session.run thread).2 := by
  induction session generalizing thread with
  | done value => exact ⟨fun h => ⟨trivial, h⟩, And.right⟩
  | fetch url publicId next ih => exact (and_congr_right fun _ => ih _).trans and_assoc.symm
  | note _ _ ih | install _ _ ih | uninstall _ ih | report _ _ _ _ ih | restore _ _ ih => exact ih
  | collect _ _ ih | collected _ _ ih | enter _ _ ih => exact ih _

theorem Passive.eachLoad {session : Session E α} (h : Passive session)
    (hP : ∀ now : Thread E, now.resolution = thread.resolution →
      ∀ url publicId, P now url publicId) : session.EachLoad P thread := by
  induction h generalizing thread with
  | done value => trivial
  | note call _ ih => exact ih hP
  | report channel notice _ ih =>
      refine ih fun now hnow => hP now (hnow.trans ?_)
      exact thread.report_resolution none channel notice
  | fetch url publicId _ ih => exact ⟨hP thread rfl url publicId, ih _ hP⟩

theorem eachLoad_follow (context : Option Nat) (call : Run E.Entity α)
    (hP : ∀ now : Thread E, now.resolution = thread.resolution →
      ∀ url publicId, P now url publicId) : (follow context call).EachLoad P thread := by
  induction call generalizing thread with
  | done value => trivial
  | report channel notice next ih =>
      refine ih fun now hnow => hP now (hnow.trans ?_)
      exact thread.report_resolution context channel notice
  | fetch url publicId next ih =>
      exact ⟨hP (thread.note [.load url publicId]) rfl url publicId, ih _ hP⟩

theorem run_follow_resolution (context : Option Nat) (call : Run E.Entity α)
    (thread : Thread E) :
    ((follow context call).run thread).2.resolution = thread.resolution := by
  induction call generalizing thread with
  | done value => rfl
  | report channel notice next ih =>
      exact (ih _).trans (thread.report_resolution context channel notice)
  | fetch url publicId next ih => exact ih _ _

end Session

/-! ## Errors -/

/-- The first two letters of a text. They tell the failures for a NUL from all others. -/
def initials (text : String) : List Char :=
  text.toList.take 2

theorem initials_append {text : String} (h : 2 ≤ text.toList.length) (rest : String) :
    initials (text ++ rest) = initials text := by
  rw [initials, initials, String.toList_append, List.take_append_of_le_length h]

theorem initials_append_ne {text : String} {letters : List Char} (h : 2 ≤ text.toList.length)
    (hne : initials text ≠ letters) (rest : String) : initials (text ++ rest) ≠ letters :=
  fun heq => hne ((initials_append h rest).symm.trans heq)

theorem EngineError.initials_message_nulInText (text : String) :
    initials (nulInText text).message = ['S', 't'] :=
  (initials_append (by decide +kernel) text).trans (by decide +kernel)

theorem EngineError.initials_message_ne {error : EngineError} (h : ∀ text, error ≠ .nulInText text) :
    initials error.message ≠ ['S', 't'] := by
  cases error with
  | nulInText text => exact absurd rfl (h text)
  | schemaRefused | noValidationContext | outOfMemory => decide +kernel
  | query expression | transform systemId =>
      exact initials_append_ne (by decide +kernel) (by decide +kernel) _
  | validationAborted code systemId =>
      change initials ("Document validation failed with code " ++ toString code.toInt ++ ": " ++
        systemId) ≠ _
      rw [String.append_assoc, String.append_assoc]
      exact initials_append_ne (by decide +kernel) (by decide +kernel) _
  | inputTooLarge size =>
      change initials ("Input too large for libxml2: " ++ toString size ++ " bytes") ≠ _
      rw [String.append_assoc]
      exact initials_append_ne (by decide +kernel) (by decide +kernel) _

namespace ValidationError

/-- The failure of a call that a text with a NUL was meant for. -/
def ForNul (error : ValidationError) : Prop :=
  ∃ text, error = (EngineError.nulInText text).toValidation

theorem not_forNul_engine {details : String} (h : initials details ≠ ['S', 't']) :
    ¬ (engine details).ForNul := by
  rintro ⟨text, heq⟩
  rw [EngineError.toValidation, engine.injEq] at heq
  exact h (heq ▸ EngineError.initials_message_nulInText text)

theorem not_forNul_toValidation {error : EngineError} (h : ∀ text, error ≠ .nulInText text) :
    ¬ error.toValidation.ForNul :=
  not_forNul_engine (EngineError.initials_message_ne h)

end ValidationError

/-! ## Attempts -/

namespace Attempt

variable {resolution : Option (Resolution E)} {P : α → Prop} {Q : β → Prop}
  {R : ValidationError → Prop}

/-- How an attempt ends: with such a value or with such an error. -/
def Ending (P : α → Prop) (R : ValidationError → Prop) : Except ValidationError α → Prop
  | .ok value => P value
  | .error error => R error

/-- On every thread under a resolution, no load of an attempt is hindered. The attempt leaves the
resolution alone, and it ends with such a value or with such an error. -/
def Passes (resolution : Option (Resolution E)) (attempt : Attempt E α) (P : α → Prop)
    (R : ValidationError → Prop) : Prop :=
  ∀ thread : Thread E, thread.resolution = resolution →
    attempt.outcome.EachLoad Thread.Unhindered thread ∧
      (attempt.outcome.run thread).2.resolution = resolution ∧
      Ending P R (attempt.outcome.run thread).1

theorem passes_ofExcept {outcome : Except ValidationError α} (h : Ending P R outcome) :
    (ofExcept outcome).Passes resolution P R :=
  fun _ hthread => ⟨trivial, hthread, h⟩

theorem passes_pure {value : α} (h : P value) :
    (pure value : Attempt E α).Passes resolution P R :=
  fun _ hthread => ⟨trivial, hthread, h⟩

theorem passes_throw {error : ValidationError} (h : R error) :
    (throw error : Attempt E α).Passes resolution P R :=
  fun _ hthread => ⟨trivial, hthread, h⟩

theorem passes_ensure {condition : Bool} {error : EngineError}
    (h : condition = false → R error.toValidation) :
    (ensure condition error : Attempt E Unit).Passes resolution (fun _ => True) R := by
  cases condition with
  | true => exact passes_pure trivial
  | false => exact passes_throw (h rfl)

theorem passes_ensurePassable {text : String} (h : hasNul text = false) :
    (ensurePassable text : Attempt E Unit).Passes resolution (fun _ => True) R :=
  passes_ensure fun hrefused => by simp [h] at hrefused

theorem passes_note (call : Call) :
    (lift (.note call (.done ())) : Attempt E Unit).Passes resolution (fun _ => True) R :=
  fun _ hthread => ⟨trivial, hthread, trivial⟩

/-- A passive attempt has no other resolution for its loads than the one in force. -/
theorem Passive.passes {attempt : Attempt E α} (h : attempt.Passive)
    (hresolution : ∀ inForce ∈ resolution, inForce.Passable)
    (hending : Ending P R (attempt.value resolution)) : attempt.Passes resolution P R := by
  rintro thread rfl
  refine ⟨Session.Passive.eachLoad h fun now hnow => ?_, Session.Passive.run_resolution h thread,
    ?_⟩
  · exact now.unhindered (hnow ▸ hresolution)
  · rw [h.run_fst]
    exact hending

theorem passes_follow (hresolution : ∀ inForce ∈ resolution, inForce.Passable)
    (context : Option Nat) (run : Run E.Entity α) :
    (lift (Session.follow context run)).Passes resolution (fun _ => True) R := by
  rintro thread rfl
  rw [run_lift]
  refine ⟨Session.eachLoad_bind.2 ⟨?_, trivial⟩, ?_, trivial⟩
  · exact Session.eachLoad_follow context run fun now hnow => now.unhindered (hnow ▸ hresolution)
  · exact Session.run_follow_resolution context run thread

/-- A call that works in a context, or in none. -/
theorem passes_call (hresolution : ∀ inForce ∈ resolution, inForce.Passable) (call : Call)
    (context : Option Nat) (run : Run E.Entity α) :
    (lift (.note call (Session.follow context run))).Passes resolution (fun _ => True) R :=
  fun thread hthread => passes_follow hresolution context run (thread.note [call]) hthread

namespace Passes

theorem ending {attempt : Attempt E α} (h : attempt.Passes resolution P R) :
    Ending P R (attempt.value resolution) :=
  (h (Thread.under resolution) rfl).2.2

theorem bind {attempt : Attempt E α} {next : α → Attempt E β}
    (h : attempt.Passes resolution P R)
    (hnext : ∀ value, P value → (next value).Passes resolution Q R) :
    (attempt >>= next).Passes resolution Q R := by
  intro thread hthread
  obtain ⟨hloads, hkept, hending⟩ := h thread hthread
  have houtcome : (attempt >>= next).outcome = attempt.outcome.bind (ExceptT.bindCont next) := rfl
  rw [houtcome, Session.eachLoad_bind, Session.run_bind]
  rcases hrun : attempt.outcome.run thread with ⟨error | value, between⟩
  · rw [hrun] at hkept hending
    exact ⟨⟨hloads, trivial⟩, hkept, hending⟩
  · rw [hrun] at hkept hending
    obtain ⟨hloads', hkept', hending'⟩ := hnext value hending between hkept
    exact ⟨⟨hloads, hloads'⟩, hkept', hending'⟩

/-- The bracket itself does not fail: how the body ends is part of its value. -/
theorem capturing {R' : ValidationError → Prop} {body : Nat → Attempt E α}
    (h : ∀ collector, (body collector).Passes resolution P R) (systemId : String) :
    (capturing systemId body).Passes resolution (fun captured => Ending P R captured.1) R' := by
  intro thread hthread
  obtain ⟨hloads, hkept, hending⟩ := h thread.collectors.length
    ((thread.collect systemId).2.install thread.collectors.length) hthread
  rw [run_capturing rfl]
  exact ⟨Session.eachLoad_bind.2 ⟨Session.eachLoad_bind.2 ⟨hloads, trivial⟩, trivial⟩, hkept,
    hending⟩

/-- A resolution is in force in a bracket of its own. -/
theorem within {attempt : Attempt E α} (inner : Option (Resolution E))
    (h : attempt.Passes (inner.or resolution) P R) :
    (within inner attempt).Passes resolution P R := by
  cases inner with
  | none => exact h
  | some inner =>
      intro thread hthread
      obtain ⟨hloads, -, hending⟩ := h (thread.enter inner).2 rfl
      have hrun := Session.run_bind attempt.outcome
        (fun outcome => .restore thread.resolution (.done outcome)) (thread.enter inner).2
      -- Whatever resolution the attempt leaves behind, the bracket puts the outer one back.
      refine ⟨Session.eachLoad_bind.2 ⟨hloads, trivial⟩, ?_, ?_⟩
      · exact (congrArg (fun ended => ended.2.resolution) hrun).trans hthread
      · exact (congrArg Prod.fst hrun) ▸ hending

end Passes

/-! ### Calls -/

theorem passes_loadCatalog {path : String} (h : R (.catalog path)) :
    (loadCatalog path : Attempt E E.LoadedCatalog).Passes resolution (fun _ => True) R := by
  unfold loadCatalog
  cases hasNul path with
  | true => exact passes_throw h
  | false =>
      refine (passes_note _).bind fun _ _ => ?_
      cases E.loadCatalog path with
      | none => exact passes_throw h
      | some catalog => exact passes_pure trivial

theorem passes_parse (hresolution : ∀ inForce ∈ resolution, inForce.Passable) {octets : Octets}
    {url : String} (hurl : hasNul url = false)
    (h : R (EngineError.inputTooLarge octets.length).toValidation) :
    (parse octets url : Attempt E (Option E.Document)).Passes resolution (fun _ => True) R := by
  refine (passes_ensure fun _ => h).bind fun _ _ => ?_
  exact (passes_ensurePassable hurl).bind fun _ _ => passes_call hresolution _ none _

theorem passes_openXPath {document : E.Document}
    (h : E.opensXPath document = false → R EngineError.outOfMemory.toValidation) :
    (openXPath document : Attempt E Unit).Passes resolution (fun _ => True) R :=
  (passes_note _).bind fun _ _ => passes_ensure h

theorem passes_register {document : E.Document} {name uri : String}
    (h : E.registers document name uri = false →
      R (EngineError.query ("xmlns:" ++ name ++ "=" ++ uri)).toValidation) :
    (register document name uri : Attempt E Unit).Passes resolution (fun _ => True) R :=
  (passes_note _).bind fun _ _ => passes_ensure h

theorem passes_select {document : E.Document} {expression : String}
    (h : E.select document expression = none → R (EngineError.query expression).toValidation) :
    (select document expression : Attempt E (List E.Node)).Passes resolution (fun _ => True) R := by
  refine (passes_note _).bind fun _ _ => ?_
  cases hselect : E.select document expression with
  | none => exact passes_throw (h hselect)
  | some nodes => exact passes_pure trivial

theorem passes_evaluate {document : E.Document} {node : Option E.Node} {expression : String}
    (h : E.evaluate document node expression = none →
      R (EngineError.query expression).toValidation) :
    (evaluate document node expression : Attempt E String).Passes resolution (hasNul · = false) R := by
  refine (passes_note _).bind fun _ _ => ?_
  cases hevaluate : E.evaluate document node expression with
  | none => exact passes_throw (h hevaluate)
  | some raw =>
      cases raw with
      | none => exact passes_pure rfl
      | some raw => exact passes_pure raw.hasNul_lossy

theorem passes_compileSchema (hresolution : ∀ inForce ∈ resolution, inForce.Passable)
    (collector : Nat) {document : E.Document} (h : R EngineError.outOfMemory.toValidation) :
    (compileSchema collector document).Passes resolution (fun _ => True) R := by
  refine (passes_note _).bind fun _ _ => ?_
  cases E.compileSchema document with
  | none => exact passes_throw h
  | some run => exact passes_follow hresolution _ run

theorem passes_stream (hresolution : ∀ inForce ∈ resolution, inForce.Passable) (collector : Nat)
    (schema : E.Schema) {document : Loaded} (hname : hasNul document.systemId = false)
    (h : ∀ error : EngineError, (∀ text, error ≠ .nulInText text) → R error.toValidation) :
    (stream collector schema document).Passes resolution (fun _ => True) R := by
  refine (passes_ensure fun _ => h (.inputTooLarge _) (by simp)).bind fun _ _ => ?_
  refine (passes_ensurePassable hname).bind fun _ _ => ?_
  refine (passes_ensure fun _ => h .noValidationContext (by simp)).bind fun _ _ => ?_
  refine (passes_ensure fun _ => h .outOfMemory (by simp)).bind fun _ _ => ?_
  exact passes_call hresolution _ _ _

end Attempt

end Conformance
