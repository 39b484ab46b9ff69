import Conformance.Proofs.Engine.Asking
import Conformance.Proofs.Text.WellFormed

/-!
# Inquiries about a document

With XPath an engine is asked about a document, one thing after another. An inquiry finds something
out or it fails, and a failure ends the attempt. Nothing else comes of an inquiry but its place in
the journal, so an attempt that only makes inquiries is known once it is known which.

* `Inquiry` : one thing that is asked; `Inquiry.made`, `Inquiry.outcome` : how far one gets with a
  list of them, and what it comes to;
* `Attempt.Inquires` : the attempts that make a list of inquiries, closed under sequence;
  `Inquires.asksNothing` : they ask for nothing that is loaded;
* `Engine.textOf` : what a text comes to that is asked for.
-/

namespace Conformance

variable {E : Engine} {α β : Type}

/-! ## Inquiries -/

/-- One thing that an engine is asked about a document. -/
inductive Inquiry (E : Engine) where
  | openXPath
  | register (name uri : String)
  | select (expression : String)
  | evaluate (node : Option E.Node) (expression : String)

namespace Inquiry

/-- The call that is made for it. -/
def call : Inquiry E → Call
  | .openXPath => .openXPath
  | .register name uri => .register name uri
  | .select expression => .select expression
  | .evaluate _ expression => .evaluate expression

/-- Whether the engine cannot tell, of a document. -/
def fails (document : E.Document) : Inquiry E → Bool
  | .openXPath => !E.opensXPath document
  | .register name uri => !E.registers document name uri
  | .select expression => (E.select document expression).isNone
  | .evaluate node expression => (E.evaluate document node expression).isNone

/-- The error if the engine cannot tell. -/
def error : Inquiry E → EngineError
  | .openXPath => .outOfMemory
  | .register name uri => .query ("xmlns:" ++ name ++ "=" ++ uri)
  | .select expression => .query expression
  | .evaluate _ expression => .query expression

/-- Those of some inquiries that are made: all up to the first that fails. -/
def made (document : E.Document) : List (Inquiry E) → List (Inquiry E)
  | [] => []
  | inquiry :: inquiries =>
    inquiry :: if inquiry.fails document then [] else made document inquiries

/-- What inquiries come to: the error of the first that fails, or else a value. -/
def outcome (document : E.Document) (inquiries : List (Inquiry E)) (value : α) :
    Except ValidationError α :=
  match inquiries.find? (fails document) with
  | some inquiry => .error inquiry.error.toValidation
  | none => .ok value

section

variable {document : E.Document} {inquiries : List (Inquiry E)}

theorem made_append_of_some {inquiry : Inquiry E}
    (h : inquiries.find? (fails document) = some inquiry) (rest : List (Inquiry E)) :
    made document (inquiries ++ rest) = made document inquiries := by
  induction inquiries with
  | nil => cases h
  | cons first inquiries ih =>
      rw [List.cons_append, made, made]
      cases hfirst : first.fails document with
      | true => rfl
      | false =>
          rw [List.find?_cons_of_neg (by simp [hfirst])] at h
          simp only [Bool.false_eq_true, if_false, ih h]

theorem made_append_of_none (h : inquiries.find? (fails document) = none)
    (rest : List (Inquiry E)) :
    made document (inquiries ++ rest) = made document inquiries ++ made document rest := by
  induction inquiries with
  | nil => rfl
  | cons first inquiries ih =>
      have hfirst : first.fails document = false := by
        simpa using List.find?_eq_none.1 h first List.mem_cons_self
      rw [List.find?_cons_of_neg (by simp [hfirst])] at h
      simp only [List.cons_append, made, hfirst, Bool.false_eq_true, if_false, ih h]

/-- There is an error exactly if something cannot be told. -/
theorem exists_outcome_eq_error_iff {value : α} :
    (∃ error, outcome document inquiries value = .error error) ↔
      ∃ inquiry ∈ inquiries, inquiry.fails document = true := by
  rw [← List.find?_isSome, outcome]
  cases inquiries.find? (fails document) with
  | none => simp
  | some inquiry => simp

end

end Inquiry

/-! ## Attempts that make inquiries -/

/-- The text of an expression on a node or on a whole document. What cannot be told, and what is
told to be nothing, counts as empty. -/
def Engine.textOf (E : Engine) (document : E.Document) (node : Option E.Node)
    (expression : String) : String :=
  ((E.evaluate document node expression).bind fun raw => raw.map RawText.lossy).getD ""

/-- What is well formed is given as it is written. -/
theorem Engine.textOf_of_holds {document : E.Document} {node : Option E.Node}
    {expression text : String} {raw : Option RawText}
    (h : E.evaluate document node expression = some raw) (hraw : RawText.Holds raw text) :
    E.textOf document node expression = text := by
  obtain ⟨given, rfl, hgiven⟩ := hraw
  rw [Engine.textOf, h]
  exact RawText.lossy_of_text? (Utf8.decode?_eq_some_iff.2 hgiven)

namespace Attempt

/-- An attempt that makes inquiries about a document, up to the first that fails, and comes to a
value if none does. -/
def Inquires (document : E.Document) (attempt : Attempt E α) (inquiries : List (Inquiry E))
    (value : α) : Prop :=
  attempt.outcome = Session.noting ((Inquiry.made document inquiries).map Inquiry.call)
    (.done (Inquiry.outcome document inquiries value))

section

variable {document : E.Document}

theorem inquires_pure (value : α) : Inquires document (pure value) [] value := rfl

theorem Inquires.bind {attempt : Attempt E α} {next : α → Attempt E β}
    {inquiries inquiries' : List (Inquiry E)} {value : α} {value' : β}
    (h : Inquires document attempt inquiries value)
    (hnext : Inquires document (next value) inquiries' value') :
    Inquires document (attempt >>= next) (inquiries ++ inquiries') value' := by
  have hboth : (attempt >>= next).outcome = attempt.outcome.bind (ExceptT.bindCont next) := rfl
  unfold Inquires Inquiry.outcome at h hnext ⊢
  rw [hboth, h, Session.noting_bind, List.find?_append]
  cases hfind : inquiries.find? (Inquiry.fails document) with
  | some inquiry =>
      rw [Inquiry.made_append_of_some hfind]
      rfl
  | none =>
      rw [Inquiry.made_append_of_none hfind, List.map_append, Session.noting_append, Option.none_or,
        ← hnext]
      rfl

/-- One inquiry: the call is made, and then there is an answer or none. -/
theorem inquires_one (inquiry : Inquiry E) {next : Unit → Attempt E α} {value : α}
    (hfails : inquiry.fails document = true → next () = fail inquiry.error)
    (htells : inquiry.fails document = false → next () = pure value) :
    Inquires document (lift (.note inquiry.call (.done ())) >>= next) [inquiry] value := by
  have hcall : (lift (.note inquiry.call (.done ())) >>= next).outcome =
      .note inquiry.call (next ()).outcome := rfl
  unfold Inquires Inquiry.made Inquiry.outcome
  rw [hcall]
  cases h : inquiry.fails document with
  | true =>
      rw [hfails h, if_pos rfl, List.find?_cons_of_pos h]
      rfl
  | false =>
      rw [htells h, List.find?_cons_of_neg (by simp [h])]
      rfl

theorem inquires_openXPath : Inquires document (openXPath document) [.openXPath] () := by
  refine inquires_one .openXPath (fun h => ?_) fun h => ?_
  · rw [ensure, if_neg (by simpa [Inquiry.fails] using h)]
    rfl
  · rw [ensure, if_pos (by simpa [Inquiry.fails] using h)]

theorem inquires_register (name uri : String) :
    Inquires document (register document name uri) [.register name uri] () := by
  refine inquires_one (.register name uri) (fun h => ?_) fun h => ?_
  · rw [ensure, if_neg (by simpa [Inquiry.fails] using h)]
    rfl
  · rw [ensure, if_pos (by simpa [Inquiry.fails] using h)]

/-- What cannot be selected counts as no nodes. -/
theorem inquires_select (expression : String) :
    Inquires document (select document expression) [.select expression]
      ((E.select document expression).getD []) := by
  refine inquires_one (.select expression) (fun h => ?_) fun h => ?_
  · rw [Option.isNone_iff_eq_none.1 h]
    rfl
  · obtain ⟨nodes, hnodes⟩ := Option.isSome_iff_exists.1 (Option.isNone_eq_false_iff.1 h)
    rw [hnodes]
    rfl

theorem inquires_evaluate (node : Option E.Node) (expression : String) :
    Inquires document (evaluate document node expression) [.evaluate node expression]
      (E.textOf document node expression) := by
  refine inquires_one (.evaluate node expression) (fun h => ?_) fun h => ?_
  · rw [Option.isNone_iff_eq_none.1 h]
    rfl
  · obtain ⟨raw, hraw⟩ := Option.isSome_iff_exists.1 (Option.isNone_eq_false_iff.1 h)
    rw [Engine.textOf, hraw]
    cases raw <;> rfl

/-- On any thread, all that inquiries leave is their calls in the journal. -/
theorem Inquires.run {attempt : Attempt E α} {inquiries : List (Inquiry E)} {value : α}
    (h : Inquires document attempt inquiries value) (thread : Thread E) :
    attempt.outcome.run thread = (Inquiry.outcome document inquiries value,
      thread.note ((Inquiry.made document inquiries).map Inquiry.call)) := by
  rw [h, Session.run_noting]
  rfl

theorem Inquires.passive {attempt : Attempt E α} {inquiries : List (Inquiry E)} {value : α}
    (h : Inquires document attempt inquiries value) : attempt.Passive := by
  rw [Passive, h]
  exact (Session.Passive.done _).noting _

theorem Inquires.asksNothing {attempt : Attempt E α} {inquiries : List (Inquiry E)} {value : α}
    (h : Inquires document attempt inquiries value) : attempt.AsksNothing where
  passive := h.passive
  asks := by
    have hcalls : attempt.calls none = (Inquiry.made document inquiries).map Inquiry.call := by
      rw [calls, h.run]
      exact List.nil_append _
    rw [asks, hcalls, List.filter_eq_nil_iff]
    intro call hcall
    obtain ⟨inquiry, -, rfl⟩ := List.mem_map.1 hcall
    cases inquiry <;> exact Bool.false_ne_true

end

end Attempt

end Conformance
