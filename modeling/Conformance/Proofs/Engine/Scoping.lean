import Conformance.Engine.Recorded
import Conformance.Proofs.Engine.Running

/-!
# Resolutions within resolutions

A scope is entered with a resolution, and leaving it puts back what was in force before. Nothing
keeps a list of the scopes that are open: the thread has the resolution in force, and each scope has
the one that it is to put back. Scopes that are left in reverse order are a stack all the same.

* `ScopeAction` : a scope is entered or left, or an entity is loaded; `WellNested` : each scope that
  is entered is left, after all those entered within it;
* `Session.scoping` : actions performed on a thread, with what the scopes are to put back;
* `openScopes` : the scopes that are open after actions, innermost first;
* `Linked` : the invariant. What is in force and what each scope is to put back are, in a row, the
  resolutions of the open scopes and the one from before;
* `answered_by_innermost` : each load is answered by the innermost scope.
-/

namespace Conformance

variable {E : Engine}

/-- What is done with the resolution of a thread. Scopes are told apart by numbers. -/
inductive ScopeAction (E : Engine) where
  | enter (scope : Nat) (resolution : Resolution E)
  | leave (scope : Nat)
  | load (url publicId : Option RawText)

/-- Actions by which each scope is left that is entered, after all those entered within it. -/
inductive WellNested : List (ScopeAction E) → Prop where
  | nil : WellNested []
  | load (url publicId : Option RawText) {rest : List (ScopeAction E)} (h : WellNested rest) :
      WellNested (.load url publicId :: rest)
  | scope (scope : Nat) (resolution : Resolution E) {inner rest : List (ScopeAction E)}
      (hinner : WellNested inner) (hrest : WellNested rest) :
      WellNested (.enter scope resolution :: (inner ++ .leave scope :: rest))

/-! ## Actions on a thread -/

/-- What the open scopes are to put back, the scope entered last first. -/
abbrev Guards (E : Engine) := List (Nat × Option (Resolution E))

/-- Performs an action. A scope keeps what was in force when it was entered, and puts it back. -/
def ScopeAction.session (action : ScopeAction E) (guards : Guards E) : Session E (Guards E) :=
  match action with
  | .enter scope resolution =>
    .enter resolution fun previous => .done ((scope, previous) :: guards)
  | .leave scope =>
    match guards.lookup scope with
    | some previous => .restore previous (.done (guards.eraseP (·.1 == scope)))
    | none => .done guards
  | .load url publicId => .fetch url publicId fun _ => .done guards

/-- Performs actions one after another. -/
def Session.scoping : List (ScopeAction E) → Guards E → Session E (Guards E)
  | [], guards => .done guards
  | action :: rest, guards => (action.session guards).bind (scoping rest)

/-- The scope entered last puts back what it has kept. -/
theorem session_leave (scope : Nat) (previous : Option (Resolution E)) (guards : Guards E) :
    ScopeAction.session (.leave scope) ((scope, previous) :: guards) =
      .restore previous (.done guards) := by
  simp [ScopeAction.session]

/-! ## Scopes that are open -/

/-- The scopes that are open after an action, innermost first. -/
def ScopeAction.openAfter (action : ScopeAction E) (scopes : List (Nat × Resolution E)) :
    List (Nat × Resolution E) :=
  match action with
  | .enter scope resolution => (scope, resolution) :: scopes
  | .leave scope => scopes.eraseP (·.1 == scope)
  | .load _ _ => scopes

/-- The scopes that are open after actions, innermost first. -/
def openScopes (actions : List (ScopeAction E)) (scopes : List (Nat × Resolution E)) :
    List (Nat × Resolution E) :=
  actions.foldl (fun scopes action => action.openAfter scopes) scopes

/-- Whether no scope is left before those within it. -/
def LeavesInnermost : List (ScopeAction E) → List (Nat × Resolution E) → Prop
  | [], _ => True
  | action :: rest, scopes =>
    (∀ scope, action = .leave scope → scopes.head?.map Prod.fst = some scope) ∧
      LeavesInnermost rest (action.openAfter scopes)

theorem leavesInnermost_append {actions rest : List (ScopeAction E)}
    {scopes : List (Nat × Resolution E)} :
    LeavesInnermost (actions ++ rest) scopes ↔
      LeavesInnermost actions scopes ∧ LeavesInnermost rest (openScopes actions scopes) := by
  induction actions generalizing scopes with
  | nil => simp [LeavesInnermost, openScopes]
  | cons action actions ih =>
      rw [List.cons_append, LeavesInnermost, LeavesInnermost, ih, and_assoc]
      rfl

theorem openScopes_append (actions rest : List (ScopeAction E))
    (scopes : List (Nat × Resolution E)) :
    openScopes (actions ++ rest) scopes = openScopes rest (openScopes actions scopes) :=
  List.foldl_append

theorem openAfter_leave (scope : Nat) (resolution : Resolution E)
    (scopes : List (Nat × Resolution E)) :
    ScopeAction.openAfter (.leave scope) ((scope, resolution) :: scopes) = scopes := by
  simp [ScopeAction.openAfter]

namespace WellNested

variable {actions : List (ScopeAction E)}

/-- Well-nested actions close what they open, and nothing else. -/
theorem openScopes_eq (h : WellNested actions) (scopes : List (Nat × Resolution E)) :
    openScopes actions scopes = scopes := by
  induction h generalizing scopes with
  | nil => rfl
  | load url publicId _ ih => exact ih scopes
  | @scope scope resolution inner rest _ _ ihinner ihrest =>
      have hinner : openScopes (.enter scope resolution :: inner) scopes =
          (scope, resolution) :: scopes := ihinner _
      have hleave := openAfter_leave scope resolution scopes
      rw [← List.cons_append, openScopes_append, hinner, openScopes, List.foldl_cons, hleave]
      exact ihrest scopes

/-- Well-nested actions leave the innermost scope each time. -/
theorem leavesInnermost (h : WellNested actions) (scopes : List (Nat × Resolution E)) :
    LeavesInnermost actions scopes := by
  induction h generalizing scopes with
  | nil => trivial
  | load url publicId _ ih => exact ⟨fun _ h => (nomatch h), ih scopes⟩
  | scope scope resolution hinner _ ihinner ihrest =>
      refine ⟨fun _ h => (nomatch h), leavesInnermost_append.2 ⟨ihinner _, ?_⟩⟩
      rw [ScopeAction.openAfter, hinner.openScopes_eq]
      refine ⟨fun left h => ?_, ?_⟩
      · cases h
        rfl
      · rw [openAfter_leave]
        exact ihrest scopes

end WellNested

/-! ## The invariant -/

/-- What is in force on a thread, and what its scopes are to put back, when certain scopes are open:
in a row, these are the resolutions of the scopes and one from before them all. -/
structure Linked (base : Option (Resolution E)) (scopes : List (Nat × Resolution E))
    (guards : Guards E) (thread : Thread E) : Prop where
  names : guards.map Prod.fst = scopes.map Prod.fst
  chain : thread.resolution :: guards.map Prod.snd = scopes.map (some ·.2) ++ [base]

namespace Linked

variable {base : Option (Resolution E)} {scopes : List (Nat × Resolution E)} {guards : Guards E}
  {thread : Thread E}

/-- What is in force is the resolution of the innermost scope. -/
theorem resolution_eq (h : Linked base scopes guards thread) :
    thread.resolution = (scopes.head?.map Prod.snd).or base := by
  have hchain := congrArg List.head? h.chain
  cases scopes with
  | nil => simpa using hchain
  | cons innermost outer => simpa using hchain

theorem act (h : Linked base scopes guards thread) {action : ScopeAction E}
    (hleave : ∀ scope, action = .leave scope → scopes.head?.map Prod.fst = some scope) :
    Linked base (action.openAfter scopes) ((action.session guards).run thread).1
      ((action.session guards).run thread).2 := by
  cases action with
  | enter scope resolution =>
      exact ⟨congrArg (scope :: ·) h.names, congrArg (some resolution :: ·) h.chain⟩
  | leave scope =>
      -- the scope that is left is the one entered last, so what it kept comes first
      have hinnermost := hleave scope rfl
      obtain ⟨hnames, hchain⟩ := h
      match scopes, guards with
      | [], _ => cases hinnermost
      | _ :: _, [] => cases hnames
      | (name, resolution) :: outer, (name', previous) :: rest =>
          obtain rfl : name = scope := Option.some_inj.1 hinnermost
          obtain ⟨hname, houter⟩ := List.cons_eq_cons.1 hnames
          obtain ⟨-, hrest⟩ := List.cons_eq_cons.1 hchain
          obtain rfl : name' = name := hname
          rw [openAfter_leave, session_leave]
          exact ⟨houter, hrest⟩
  | load url publicId => exact ⟨h.names, h.chain⟩

theorem run {actions : List (ScopeAction E)} (h : Linked base scopes guards thread)
    (hleaves : LeavesInnermost actions scopes) :
    Linked base (openScopes actions scopes) ((Session.scoping actions guards).run thread).1
      ((Session.scoping actions guards).run thread).2 := by
  induction actions generalizing scopes guards thread with
  | nil => exact h
  | cons action actions ih =>
      rw [Session.scoping, Session.run_bind]
      exact ih (h.act hleaves.1) hleaves.2

end Linked

/-! ## Answers -/

/-- What a resolution answers when it is asked for a URL. One that is missing or no text is not
looked up. -/
def Resolution.answer? (resolution : Resolution E) (url publicId : Option RawText) : Option String :=
  (url.bind RawText.text?).bind fun text => resolution.redirect text (publicId.bind RawText.text?)

/-- What is loaded in place of a URL for which there is an answer, or none. An answer that cannot be
passed on does not count. -/
def inPlaceOf (url : Option RawText) : Option String → Option RawText
  | some answer => if hasNul answer then url else some (.ofString answer)
  | none => url

namespace Thread

/-- What is answered on a thread when it is asked for a URL. -/
def answer? (thread : Thread E) (url publicId : Option RawText) : Option String :=
  thread.resolution.bind (·.answer? url publicId)

/-- A load goes where the answer leads. -/
theorem target_eq (thread : Thread E) (url publicId : Option RawText) :
    thread.target url publicId = inPlaceOf url (thread.answer? url publicId) := by
  unfold target answer? Resolution.answer?
  cases url.bind RawText.text? with
  | none => cases thread.resolution <;> rfl
  | some text =>
      cases thread.resolution with
      | none => rfl
      | some resolution =>
          simp only [Option.bind_some]
          cases resolution.redirect text (publicId.bind RawText.text?) <;> rfl

end Thread

/-- In the course of well-nested actions a load is answered by the innermost scope that is open, also
if that has no answer and one around it has; if none is open it is answered as before the actions,
so by nobody if nothing was in force. It opens what the answer says, or the URL itself if there is no
answer. What was in force before the actions is in force after them. -/
theorem answered_by_innermost {actions : List (ScopeAction E)} (h : WellNested actions)
    (thread : Thread E) :
    ((Session.scoping actions []).run thread).2.resolution = thread.resolution ∧
      ∀ (before after : List (ScopeAction E)) (url publicId : Option RawText),
        actions = before ++ .load url publicId :: after →
          let now := ((Session.scoping before []).run thread).2
          let innermost := ((openScopes before []).head?.map Prod.snd).or thread.resolution
          let answer := innermost.bind (·.answer? url publicId)
          now.answer? url publicId = answer ∧
            (now.fetch url publicId).1 = E.openEntity (inPlaceOf url answer) publicId := by
  have hstart : Linked thread.resolution [] [] thread := ⟨rfl, rfl⟩
  constructor
  · have hend := (hstart.run (h.leavesInnermost [])).resolution_eq
    rw [h.openScopes_eq] at hend
    exact hend
  · rintro before after url publicId rfl now innermost answer
    have hbefore := (leavesInnermost_append.1 (h.leavesInnermost [])).1
    have hnow : now.resolution = innermost := (hstart.run hbefore).resolution_eq
    have hanswer : now.answer? url publicId = answer := by rw [Thread.answer?, hnow]
    exact ⟨hanswer, by rw [Thread.fetch, Thread.target_eq, hanswer]⟩

/-- A scope that redirects a URL, and within it one that does not, where the place that the first
leads to has an entity; the URL is loaded in the one and then in the other. -/
def shadowing : List (ScopeAction (Recorded.Record.engine ⟨[], [("b", ⟨.null⟩)], []⟩)) :=
  [.enter 0 (.redirects [("a", "b")]), .enter 1 (.redirects []),
    .load (some (.ofString "a")) none, .leave 1, .load (some (.ofString "a")) none, .leave 0]

theorem answered_by_innermost_shadowing :
    let inner := ((Session.scoping (shadowing.take 2) []).run Thread.fresh).2
    let outer := ((Session.scoping (shadowing.take 4) []).run Thread.fresh).2
    WellNested shadowing ∧
      ((Session.scoping shadowing []).run Thread.fresh).2.resolution = none ∧
      inner.answer? (some (.ofString "a")) none = none ∧
      (inner.fetch (some (.ofString "a")) none).1 = none ∧
      outer.answer? (some (.ofString "a")) none = some "b" ∧
      (outer.fetch (some (.ofString "a")) none).1 = some ⟨.null⟩ := by
  have hnested : WellNested shadowing :=
    .scope 0 _ (.scope 1 _ (.load _ _ .nil) (.load _ _ .nil)) .nil
  obtain ⟨hend, hloads⟩ := answered_by_innermost hnested Thread.fresh
  obtain ⟨hinner, hnothing⟩ := hloads (shadowing.take 2) (shadowing.drop 3) _ _ rfl
  obtain ⟨houter, hfound⟩ := hloads (shadowing.take 4) (shadowing.drop 5) _ _ rfl
  exact ⟨hnested, hend, hinner.trans (by rfl), hnothing.trans (by rfl), houter.trans (by rfl),
    hfound.trans (by rfl)⟩

/-- Of two scopes that are left in the order in which they were entered, the second puts back what
the first has put in force. -/
example (first second : Resolution E) :
    let actions := [.enter 0 first, .enter 1 second, .leave 0, .leave 1]
    ((Session.scoping actions []).run Thread.fresh).2.resolution = some first :=
  rfl

end Conformance
