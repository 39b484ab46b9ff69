import Conformance.Proofs.Engine.Running

/-!
# Attempts that only the engine can fail

An attempt is internal if every error in which it ends is the failure of an engine call. That is so
of the calls themselves, except for the loading of a catalog, and of whatever is made of them.
-/

namespace Conformance

variable {E : Engine} {α β : Type}

namespace Attempt

/-- Attempts whose errors are failures of an engine call. -/
def Internal (attempt : Attempt E α) : Prop :=
  ∀ (thread : Thread E) (error : ValidationError),
    (attempt.outcome.run thread).1 = .error error →
      ∃ cause : EngineError, error = cause.toValidation

theorem internal_pure (value : α) : (pure value : Attempt E α).Internal :=
  fun _ _ h => nomatch h

theorem internal_lift (session : Session E α) : (lift session).Internal := by
  intro thread error h
  rw [run_lift] at h
  cases h

theorem internal_fail (error : EngineError) : (fail error : Attempt E α).Internal := by
  intro thread error' h
  cases h
  exact ⟨error, rfl⟩

theorem Internal.bind {attempt : Attempt E α} {next : α → Attempt E β} (h : attempt.Internal)
    (hnext : ∀ value, (next value).Internal) : (attempt >>= next).Internal := by
  intro thread error hrun
  rw [run_bind] at hrun
  rcases hfirst : attempt.outcome.run thread with ⟨error' | value, between⟩
  · rw [hfirst] at hrun
    cases hrun
    exact h thread error (congrArg Prod.fst hfirst)
  · rw [hfirst] at hrun
    exact hnext value between error hrun

theorem internal_ensure (condition : Bool) (error : EngineError) :
    (ensure condition error : Attempt E Unit).Internal := by
  cases condition with
  | true => exact internal_pure ()
  | false => exact internal_fail error

/-! ## Calls -/

theorem internal_buildUri (reference base : String) :
    (buildUri reference base : Attempt E (Option String)).Internal :=
  (internal_ensure _ _).bind fun _ => (internal_ensure _ _).bind fun _ => internal_pure _

theorem internal_read (url : String) : (read url : Attempt E (Option E.Document)).Internal :=
  (internal_ensure _ _).bind fun _ => internal_lift _

end Attempt

end Conformance
