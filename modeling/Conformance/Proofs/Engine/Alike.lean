import Conformance.Proofs.Engine.Places

/-!
# Attempts that come to the same

Two attempts, possibly on two engines, are compared by their outcomes alone, wherever they run.

* `BothOrNeither` : two outcomes that are both errors, or both values that are related;
* `Attempt.Alike` : attempts with such outcomes, closed under sequence (`Alike.bind`), where two
  parts may change places (`Alike.bind_comm`).
-/

namespace Conformance

/-- Two errors, or two values that are related. -/
inductive BothOrNeither {ε α β : Type} (R : α → β → Prop) : Except ε α → Except ε β → Prop where
  | neither {error error' : ε} : BothOrNeither R (.error error) (.error error')
  | both {value : α} {value' : β} (h : R value value') : BothOrNeither R (.ok value) (.ok value')

namespace BothOrNeither

variable {ε α β γ : Type} {R : α → β → Prop}

theorem symm {outcome : Except ε α} {outcome' : Except ε β} {R' : β → α → Prop}
    (h : BothOrNeither R outcome outcome')
    (hR : ∀ {value value'}, R value value' → R' value' value) :
    BothOrNeither R' outcome' outcome := by
  cases h with
  | neither => exact .neither
  | both h => exact .both (hR h)

theorem trans {outcome : Except ε α} {between : Except ε β} {after : Except ε γ} {S : β → γ → Prop}
    {T : α → γ → Prop} (h : BothOrNeither R outcome between) (h' : BothOrNeither S between after)
    (hT : ∀ {first second third}, R first second → S second third → T first third) :
    BothOrNeither T outcome after := by
  cases h with
  | neither =>
      cases h'
      exact .neither
  | both h =>
      cases h' with
      | both h' => exact .both (hT h h')

theorem exists_of_ok {outcome : Except ε α} {outcome' : Except ε β} {value : α}
    (h : BothOrNeither R outcome outcome') (hok : outcome = .ok value) :
    ∃ value', outcome' = .ok value' ∧ R value value' := by
  subst hok
  cases h with
  | both h => exact ⟨_, rfl, h⟩

theorem exists_of_error {outcome : Except ε α} {outcome' : Except ε β} {error : ε}
    (h : BothOrNeither R outcome outcome') (herror : outcome = .error error) :
    ∃ error', outcome' = .error error' := by
  subst herror
  cases h with
  | neither => exact ⟨_, rfl⟩

end BothOrNeither

variable {E F G : Engine} {α β γ δ : Type}

namespace Attempt

/-- Attempts that both fail or both give values that are related, on any two threads. -/
def Alike (R : α → β → Prop) (attempt : Attempt E α) (attempt' : Attempt F β) : Prop :=
  ∀ (thread : Thread E) (thread' : Thread F),
    BothOrNeither R (attempt.outcome.run thread).1 (attempt'.outcome.run thread').1

namespace Alike

variable {R : α → β → Prop} {S : γ → δ → Prop}

theorem trans {attempt : Attempt E α} {between : Attempt F β} {after : Attempt G γ}
    {R' : β → γ → Prop} {T : α → γ → Prop} (h : Alike R attempt between)
    (h' : Alike R' between after)
    (hT : ∀ {first second third}, R first second → R' second third → T first third) :
    Alike T attempt after :=
  fun thread thread' => (h thread Thread.fresh).trans (h' Thread.fresh thread') hT

theorem bind {attempt : Attempt E α} {attempt' : Attempt F β} {next : α → Attempt E γ}
    {next' : β → Attempt F δ} (h : Alike R attempt attempt')
    (hnext : ∀ {value value'}, R value value' → Alike S (next value) (next' value')) :
    Alike S (attempt >>= next) (attempt' >>= next') := by
  intro thread thread'
  have hfirst := h thread thread'
  rw [run_bind, run_bind]
  rcases hrun : attempt.outcome.run thread with ⟨outcome, after⟩
  rcases hrun' : attempt'.outcome.run thread' with ⟨outcome', after'⟩
  rw [hrun, hrun'] at hfirst
  cases hfirst with
  | neither => exact .neither
  | both hR => exact hnext hR after after'

/-- Two parts of an attempt of which neither uses what the other gives. -/
theorem bind_comm {attempt : Attempt E α} {attempt' : Attempt E β}
    {next : α → β → Attempt E γ} {next' : β → α → Attempt E δ} (h : Alike Eq attempt attempt)
    (h' : Alike Eq attempt' attempt') (hnext : ∀ value value', Alike S (next value value')
      (next' value' value)) :
    Alike S (attempt >>= fun value => attempt' >>= fun value' => next value value')
      (attempt' >>= fun value' => attempt >>= fun value => next' value' value) := by
  intro thread thread'
  simp only [run_bind]
  rcases hfirst : attempt.outcome.run thread with ⟨outcome, between⟩
  rcases hfirst' : attempt'.outcome.run thread' with ⟨outcome', between'⟩
  have hsame := h thread between'
  have hsame' := h' between thread'
  rw [hfirst] at hsame
  rw [hfirst'] at hsame'
  rcases hlast : attempt.outcome.run between' with ⟨_, after⟩
  rcases hlast' : attempt'.outcome.run between with ⟨_, after'⟩
  rw [hlast] at hsame
  rw [hlast'] at hsame'
  cases hsame with
  | neither =>
      cases hsame' with
      | neither => exact .neither
      | both _ =>
          simp only [hlast]
          exact .neither
  | both heq =>
      cases hsame' with
      | neither =>
          simp only [hlast']
          exact .neither
      | both heq' =>
          subst heq heq'
          simp only [hlast, hlast']
          exact hnext _ _ _ _

end Alike

theorem alike_pure {R : α → β → Prop} {value : α} {value' : β} (h : R value value') :
    Alike R (pure value : Attempt E α) (pure value' : Attempt F β) :=
  fun _ _ => .both h

theorem alike_ensure {condition condition' : Bool} (h : condition = condition')
    (error error' : EngineError) :
    Alike Eq (ensure condition error : Attempt E Unit)
      (ensure condition' error' : Attempt F Unit) := by
  subst h
  cases condition with
  | false => exact fun _ _ => .neither
  | true => exact fun _ _ => .both rfl

theorem alike_note (call call' : Call) :
    Alike Eq (lift (.note call (.done ())) : Attempt E Unit)
      (lift (.note call' (.done ())) : Attempt F Unit) :=
  fun _ _ => .both rfl

theorem alike_openXPath {document : E.Document} {document' : F.Document}
    (h : E.opensXPath document = F.opensXPath document') :
    Alike Eq (openXPath document) (openXPath document') :=
  (alike_note _ _).bind fun _ => alike_ensure h _ _

theorem alike_register {document : E.Document} {document' : F.Document} {name uri : String}
    (h : E.registers document name uri = F.registers document' name uri) :
    Alike Eq (register document name uri) (register document' name uri) :=
  (alike_note _ _).bind fun _ => alike_ensure h _ _

theorem alike_select {document : E.Document} {document' : F.Document} {expression : String}
    {R : List E.Node → List F.Node → Prop}
    (h : Option.Rel R (E.select document expression) (F.select document' expression)) :
    Alike R (select document expression) (select document' expression) := by
  refine (alike_note _ _).bind fun _ => ?_
  generalize E.select document expression = nodes at h ⊢
  generalize F.select document' expression = nodes' at h ⊢
  cases h with
  | none => exact fun _ _ => .neither
  | some h => exact alike_pure h

theorem alike_evaluate {document : E.Document} {document' : F.Document} {node : Option E.Node}
    {node' : Option F.Node} {expression : String}
    (h : E.evaluate document node expression = F.evaluate document' node' expression) :
    Alike Eq (evaluate document node expression) (evaluate document' node' expression) := by
  refine (alike_note _ _).bind fun _ => ?_
  rw [h]
  cases F.evaluate document' node' expression with
  | none => exact fun _ _ => .neither
  | some text => exact alike_pure rfl

end Attempt

end Conformance
