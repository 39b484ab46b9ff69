import Conformance.Proofs.Engine.Passive

/-!
# Sessions made of brackets

Whatever a session changes on its thread, it changes in a bracket: a collector is installed by
`Session.capturing`, a resolution is put in force by `Session.within`. This module says so once for
the way in which sessions are composed, so that a property of brackets need not be proved for each
session that has them.

* `Session.Enclosed` : what may stand in a `capturing` bracket. It opens no other one, and uses the
  collector of its own for nothing but as the context of calls;
* `Session.Bracketed` : sessions in which collectors and resolutions occur in brackets only;
* `Attempt.Enclosed`, `Attempt.Bracketed` : the same of attempts, closed under sequence.
-/

namespace Conformance

variable {E : Engine} {α β : Type}

namespace Session

/-- What a collector may be installed for. -/
inductive Enclosed : {α : Type} → (Nat → Session E α) → Prop where
  | passive {α : Type} {session : Session E α} (h : Passive session) : Enclosed fun _ => session
  | follow {α : Type} (call : Run E.Entity α) :
      Enclosed fun collector => follow (some collector) call
  | bind {α β : Type} {body : Nat → Session E α} {after : α → Nat → Session E β}
      (h : Enclosed body) (hafter : ∀ value, Enclosed (after value)) :
      Enclosed fun collector => (body collector).bind fun value => after value collector
  | within {α : Type} (resolution : Option (Resolution E)) {body : Nat → Session E α}
      (h : Enclosed body) : Enclosed fun collector => within resolution (body collector)

/-- Sessions that change nothing on their thread but in brackets. -/
inductive Bracketed : {α : Type} → Session E α → Prop where
  | passive {α : Type} {session : Session E α} (h : Passive session) : Bracketed session
  | capturing {α : Type} (systemId : String) {body : Nat → Session E α} (h : Enclosed body) :
      Bracketed (capturing systemId body)
  | within {α : Type} (resolution : Option (Resolution E)) {body : Session E α}
      (h : Bracketed body) : Bracketed (within resolution body)
  | bind {α β : Type} {session : Session E α} {after : α → Session E β} (h : Bracketed session)
      (hafter : ∀ value, Bracketed (after value)) : Bracketed (session.bind after)

end Session

namespace Attempt

/-! ## Attempts in a bracket -/

/-- What a collector may be installed for, if it can fail. -/
def Enclosed (body : Nat → Attempt E α) : Prop :=
  Session.Enclosed fun collector => (body collector).outcome

theorem Passive.enclosed {attempt : Attempt E α} (h : attempt.Passive) :
    Enclosed fun _ => attempt :=
  .passive h

theorem Enclosed.bind {body : Nat → Attempt E α} {next : α → Nat → Attempt E β}
    (h : Enclosed body) (hnext : ∀ value, Enclosed (next value)) :
    Enclosed fun collector => body collector >>= fun value => next value collector := by
  have hafter : ∀ outcome : Except ValidationError α, Session.Enclosed fun collector =>
      ExceptT.bindCont (fun value => next value collector) outcome := by
    intro outcome
    cases outcome with
    | ok value => exact hnext value
    | error error => exact .passive (.done _)
  exact Session.Enclosed.bind h hafter

theorem Enclosed.within (resolution : Option (Resolution E)) {body : Nat → Attempt E α}
    (h : Enclosed body) : Enclosed fun collector => within resolution (body collector) :=
  Session.Enclosed.within resolution h

/-- A call in the context of the collector that is installed. -/
theorem enclosed_follow (call : Call) (run : Run E.Entity α) :
    Enclosed fun collector => lift (.note call (Session.follow (some collector) run)) := by
  have hcall : Session.Passive (E := E) (.note call (.done ())) := .note call (.done ())
  have hfollow := (Session.Enclosed.passive hcall).bind fun _ => Session.Enclosed.follow run
  exact Session.Enclosed.bind hfollow fun _ => .passive (.done _)

theorem enclosed_compileSchema (document : E.Document) :
    Enclosed fun collector => compileSchema collector document := by
  refine (passive_note _).enclosed.bind fun _ => ?_
  cases E.compileSchema document with
  | none => exact (passive_throw _).enclosed
  | some run => exact Session.Enclosed.bind (.follow run) fun _ => .passive (.done _)

theorem enclosed_stream (schema : E.Schema) (document : Loaded) :
    Enclosed fun collector => stream collector schema document :=
  (passive_ensure _ _).enclosed.bind fun _ => (passive_ensure _ _).enclosed.bind fun _ =>
    (passive_ensure _ _).enclosed.bind fun _ => (passive_ensure _ _).enclosed.bind fun _ =>
      enclosed_follow _ _

/-! ## Attempts made of brackets -/

/-- Attempts that change nothing on their thread but in brackets. -/
def Bracketed (attempt : Attempt E α) : Prop :=
  attempt.outcome.Bracketed

theorem Passive.bracketed {attempt : Attempt E α} (h : attempt.Passive) : attempt.Bracketed :=
  .passive h

theorem Bracketed.bind {attempt : Attempt E α} {next : α → Attempt E β} (h : attempt.Bracketed)
    (hnext : ∀ value, (next value).Bracketed) : (attempt >>= next).Bracketed := by
  refine Session.Bracketed.bind h fun outcome => ?_
  cases outcome with
  | ok value => exact hnext value
  | error error => exact .passive (.done _)

theorem Bracketed.within (resolution : Option (Resolution E)) {body : Attempt E α}
    (h : body.Bracketed) : (within resolution body).Bracketed :=
  Session.Bracketed.within resolution h

theorem bracketed_ofExcept (outcome : Except ValidationError α) :
    (ofExcept outcome : Attempt E α).Bracketed :=
  .passive (.done outcome)

theorem bracketed_capturing (systemId : String) {body : Nat → Attempt E α} (h : Enclosed body) :
    (capturing systemId body).Bracketed :=
  Session.Bracketed.bind (.capturing systemId h) fun _ => .passive (.done _)

end Attempt

end Conformance
