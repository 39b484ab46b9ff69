import Conformance.Proofs.Engine.Determination
import Conformance.Proofs.Jobs.Disks
import Conformance.Proofs.Jobs.Rest

/-!
# Validators in the course of time

A program makes validators, copies them and asks them about documents, on one thread, while files
are written and deleted. A schema is compiled when its validator is made; a transform is compiled
again for every document.

* `Event`, `Moment` : what happens, and what there is at one time: a disk, the thread and the
  validators that are held;
* `Making`, `Account` : an account of the same events that knows nothing of threads, of compiled
  schemas and of results: of each validator it says how it was made;
* `Matches.step`, `Matches.foldl` : the account accounts for what is held;
* `Moment.validate_after` : so the result for a document is told by the account and by the disk of
  that time.
-/

namespace Conformance

variable {E : Engine} {α : Type}

/-! ## Events -/

/-- A validator that is held. -/
inductive Held (E : Engine) where
  | schema (validator : Schema.Validator E)
  | transform (validator : Schematron.Validator)

/-- Validates a document. -/
def Held.validate (held : Held E) (disk : Disk E) (document : Source) :
    Attempt (E.on disk) (List Violation) :=
  match held with
  | .schema validator => (validator.on disk).validate disk.files document
  | .transform validator => validator.validate disk.files document

/-- What happens: files change, or a validator is made, copied or asked about a document.
Validators are known by their numbers, in the order in which they were made. -/
inductive Event (E : Engine) where
  | change (disk : Disk E)
  | compile (schema : Source) (catalog : Option String)
  | prepare (transform : Source) (catalog : Option String)
  | clone (number : Nat)
  | validate (number : Nat) (document : Source)

/-- What there is at one time. A validator that could not be made has its number as well. -/
structure Moment (E : Engine) where
  disk : Disk E
  thread : Thread E
  held : List (Option (Held E))

namespace Moment

/-- Makes an attempt on the thread, with the disk as it is. -/
def perform (moment : Moment E) (attempt : Attempt (E.on moment.disk) α) :
    Except ValidationError α × Moment E :=
  let (outcome, thread) := attempt.outcome.run (moment.thread.on moment.disk)
  (outcome, { moment with thread := thread.off })

/-- Holds one more validator. -/
def hold (moment : Moment E) (held : Option (Held E)) : Moment E :=
  { moment with held := moment.held ++ [held] }

/-- Asks a validator about a document. -/
def validate (moment : Moment E) (number : Nat) (document : Source) :
    Option (Except ValidationError (List Violation)) × Moment E :=
  match moment.held[number]?.join with
  | none => (none, moment)
  | some held =>
    let (outcome, after) := moment.perform (held.validate moment.disk document)
    (some outcome, after)

/-- What there is after one more event. -/
def step (moment : Moment E) : Event E → Moment E
  | .change disk => { moment with disk }
  | .compile schema catalog =>
    let (outcome, after) :=
      moment.perform (Schema.Validator.build moment.disk.files schema catalog)
    after.hold ((outcome.map Schema.Validator.off).toOption.map .schema)
  | .prepare transform catalog => moment.hold (some (.transform ⟨transform, catalog⟩))
  | .clone number => moment.hold moment.held[number]?.join
  | .validate number document => (moment.validate number document).2

end Moment

/-! ## The account -/

/-- How a validator was made: from a schema, with the disk of that time, or from a transform. -/
inductive Making (E : Engine) where
  | compiled (disk : Disk E) (schema : Source) (catalog : Option String)
  | prepared (transform : Source) (catalog : Option String)

/-- What comes of compiling a schema on a disk, on a thread on which nothing has happened. -/
def Disk.built (disk : Disk E) (schema : Source) (catalog : Option String) :
    Except ValidationError (Schema.Validator E) :=
  ((Schema.Validator.build disk.files schema catalog : Attempt (E.on disk) _).value none).map
    Schema.Validator.off

/-- The validator that is made in one way, if one is. -/
def Making.held : Making E → Option (Held E)
  | .compiled disk schema catalog => (disk.built schema catalog).toOption.map .schema
  | .prepared transform catalog => some (.transform ⟨transform, catalog⟩)

/-- How each validator was made, and the disk as it is now. -/
structure Account (E : Engine) where
  disk : Disk E
  makings : List (Option (Making E))

/-- The account of one more event. A document that is validated leaves no trace in it. -/
def Account.step (account : Account E) : Event E → Account E
  | .change disk => { account with disk }
  | .compile schema catalog =>
    { account with makings := account.makings ++ [some (.compiled account.disk schema catalog)] }
  | .prepare transform catalog =>
    { account with makings := account.makings ++ [some (.prepared transform catalog)] }
  | .clone number => { account with makings := account.makings ++ [account.makings[number]?.join] }
  | .validate _ _ => account

/-- What is held was made as the account says, and nothing is left of any call on the thread. -/
structure Account.Matches (account : Account E) (moment : Moment E) : Prop where
  disk : moment.disk = account.disk
  atRest : moment.thread.AtRest
  held : moment.held = account.makings.map (·.bind Making.held)

/-! ## Calls on a thread at rest -/

namespace Thread.AtRest

theorem on {thread : Thread E} (h : thread.AtRest) (disk : Disk E) : (thread.on disk).AtRest :=
  ⟨h.handler, congrArg (Option.map _) h.resolution⟩

theorem off {disk : Disk E} {thread : Thread (E.on disk)} (h : thread.AtRest) :
    thread.off.AtRest :=
  ⟨h.handler, congrArg (Option.map _) h.resolution⟩

end Thread.AtRest

/-- An attempt made of brackets leaves a thread at rest. -/
theorem Attempt.Bracketed.atRest {attempt : Attempt E α} (h : attempt.Bracketed)
    {thread : Thread E} (hthread : thread.AtRest) : (attempt.outcome.run thread).2.AtRest := by
  have horderly : Session.Orderly thread.settings ⟨none, none⟩ attempt.outcome := by
    rw [hthread.settings]
    exact Session.Bracketed.orderly h rfl
  exact Thread.atRest_of_settings horderly.run_settings

theorem Held.bracketed_validate (held : Held E) (disk : Disk E) (document : Source) :
    (held.validate disk document).Bracketed := by
  cases held with
  | schema validator => exact (validator.on disk).bracketed_validate disk.files document
  | transform validator => exact validator.bracketed_validate disk.files document

namespace Moment

theorem perform_fst {moment : Moment E} (hthread : moment.thread.AtRest)
    {attempt : Attempt (E.on moment.disk) α} (h : attempt.Bracketed) :
    (moment.perform attempt).1 = attempt.value none := by
  have hrun := h.run_fst (moment.thread.on moment.disk)
  rw [(hthread.on moment.disk).resolution] at hrun
  exact hrun

theorem perform_snd {moment : Moment E} (hthread : moment.thread.AtRest)
    {attempt : Attempt (E.on moment.disk) α} (h : attempt.Bracketed) :
    (moment.perform attempt).2.thread.AtRest :=
  (h.atRest (hthread.on moment.disk)).off

end Moment

/-! ## The account accounts for what is held -/

namespace Account.Matches

variable {account : Account E} {moment : Moment E}

theorem getElem? (h : account.Matches moment) (number : Nat) :
    moment.held[number]?.join = account.makings[number]?.join.bind Making.held := by
  rw [h.held, List.getElem?_map]
  cases account.makings[number]? <;> rfl

theorem hold (h : account.Matches moment) {making : Option (Making E)} {held : Option (Held E)}
    (hheld : held = making.bind Making.held) :
    Account.Matches { account with makings := account.makings ++ [making] } (moment.hold held) where
  disk := h.disk
  atRest := h.atRest
  held := by simp [Moment.hold, h.held, hheld]

theorem step (h : account.Matches moment) (event : Event E) :
    (account.step event).Matches (moment.step event) := by
  cases event with
  | change disk => exact ⟨rfl, h.atRest, h.held⟩
  | compile schema catalog =>
      have hbuild := Schema.Validator.bracketed_build (E := E.on moment.disk) moment.disk.files
        schema catalog
      have hafter : account.Matches (moment.perform
          (Schema.Validator.build moment.disk.files schema catalog)).2 :=
        ⟨h.disk, Moment.perform_snd h.atRest hbuild, h.held⟩
      refine hafter.hold ?_
      -- the disk that the account remembers is the one on which the schema was just compiled
      rw [← h.disk]
      exact congrArg (fun outcome => (outcome.map Schema.Validator.off).toOption.map Held.schema)
        (Moment.perform_fst h.atRest hbuild)
  | prepare transform catalog => exact h.hold rfl
  | clone number => exact h.hold (h.getElem? number)
  | validate number document =>
      show account.Matches (moment.validate number document).2
      unfold Moment.validate
      split
      · exact h
      · next held _ =>
          exact ⟨h.disk, Moment.perform_snd h.atRest (held.bracketed_validate _ _), h.held⟩

/-- Whatever happens, and whatever comes of it. -/
theorem foldl (h : account.Matches moment) (events : List (Event E)) :
    (events.foldl Account.step account).Matches (events.foldl Moment.step moment) := by
  induction events generalizing account moment with
  | nil => exact h
  | cons event events ih => exact ih (h.step event)

/-- The result for a document is that of the same validator on a thread on which nothing has
happened. -/
theorem validate (h : account.Matches moment) {number : Nat} {making : Making E} {held : Held E}
    (hmaking : account.makings[number]? = some (some making)) (hheld : making.held = some held)
    (document : Source) :
    (moment.validate number document).1 =
      some ((held.validate moment.disk document).value none) := by
  have hnumber : moment.held[number]?.join = some held := by
    rw [h.getElem?, hmaking]
    exact hheld
  unfold Moment.validate
  rw [hnumber]
  exact congrArg some (Moment.perform_fst h.atRest (held.bracketed_validate _ _))

end Account.Matches

namespace Moment

/-- What a validator says of a document, after any history of files that change, of validators that
are made and copied and of documents that are validated, with or without success.

If it was made from a schema, the schema counts as it was when the validator was made, and of the
disk nothing counts now but the document and what the engine asks for in the pass over it. If it was
made from a transform, it says what a validator says that is made at this moment. -/
theorem validate_after (events : List (Event E)) (disk : Disk E) {thread : Thread E}
    (hthread : thread.AtRest) (number : Nat) (document : Source) :
    let moment := events.foldl step ⟨disk, thread, []⟩
    let account := events.foldl Account.step ⟨disk, []⟩
    (∀ before schema catalog validator,
      account.makings[number]? = some (some (.compiled before schema catalog)) →
        before.built schema catalog = .ok validator →
          ∀ other, moment.disk.AgreesOn other validator document →
            (moment.validate number document).1 =
              some (((validator.on other).validate other.files document).value none)) ∧
    ∀ transform catalog,
      account.makings[number]? = some (some (.prepared transform catalog)) →
        (moment.validate number document).1 =
          some ((Schematron.Validator.validate (E := E.on moment.disk) ⟨transform, catalog⟩
            moment.disk.files document).value none) := by
  intro moment account
  have hmatches : account.Matches moment := by
    have hstart : Account.Matches (E := E) ⟨disk, []⟩ ⟨disk, thread, []⟩ := ⟨rfl, hthread, rfl⟩
    exact hstart.foldl events
  constructor
  · intro before schema catalog validator hmaking hbuilt other hother
    have hheld : (Making.compiled before schema catalog).held = some (.schema validator) := by
      rw [Making.held, hbuilt]
      rfl
    rw [hmatches.validate hmaking hheld, Schema.Validator.value_validate_congr hother]
    rfl
  · intro transform catalog hmaking
    exact hmatches.validate hmaking rfl document

/-- An engine to which a schema is the document that alone is valid, and a transform the document in
which alone nothing is found. What is empty cannot be parsed. -/
def comparing : Engine :=
  { Schema.Validator.uniform (.done 0) with
    Document := Octets
    Schema := Octets
    Stylesheet := Octets
    parse := fun octets _ => .done (if octets.isEmpty then none else some octets)
    parseEntity := fun _ _ => .done none
    opensXPath := fun _ => true
    registers := fun _ _ _ => true
    select := fun document _ => some (if document.isEmpty then [] else [()])
    evaluate := fun _ _ _ => some none
    compileSchema := fun document => some (.done (some document))
    canValidate := fun _ => true
    stream := fun schema octets _ => .done (if octets == schema then 0 else -1)
    compileStylesheet := fun document => .done (some document)
    apply := fun stylesheet document =>
      .done (some (if document == stylesheet then [] else document)) }

/-- A disk with a few files. -/
def stored (entries : List (String × Octets)) : Disk comparing where
  files.lookup path :=
    match path.text?.bind (entries.lookup ·) with
    | some content => .ok (.file content)
    | none => .error .notFound
  files.userDirectory := none
  loadCatalog := comparing.loadCatalog
  openEntity := comparing.openEntity
  library := comparing.library
  mem_library := comparing.mem_library

/-- A schema is compiled and deleted; a transform is broken and repaired, not as it was. -/
def changes : List (Event comparing) :=
  [.compile (.file "s.xsd") none, .prepare (.file "t.xsl") none, .clone 0,
    .change (stored [("t.xsl", []), ("d.xml", [1])]), .validate 1 (.file "d.xml"),
    .validate 0 (.file "d.xml"), .change (stored [("t.xsl", [2]), ("d.xml", [1])])]

theorem validate_after_changes :
    let start : Moment comparing :=
      ⟨stored [("s.xsd", [1]), ("t.xsl", [1]), ("d.xml", [1])], Thread.fresh, []⟩
    ((changes.foldl step start).validate 2 (.file "d.xml")).1 = some (.ok []) ∧
      (((changes.take 4).foldl step start).validate 1 (.file "d.xml")).1 =
        some (.error (.compilation "t.xsl" "")) ∧
      ((changes.foldl step start).validate 1 (.file "d.xml")).1 = some (.ok [⟨"", ""⟩]) := by
  intro start
  have hfresh : start.thread.AtRest := ⟨rfl, rfl⟩
  refine ⟨?_, ?_, ?_⟩
  · have hschema := (validate_after changes start.disk hfresh 2 (.file "d.xml")).1 start.disk
      (.file "s.xsd") none ⟨[1], "s.xsd"⟩ rfl rfl _ ⟨rfl, fun _ _ _ => rfl⟩
    exact hschema.trans rfl
  · have htransform := (validate_after (changes.take 4) start.disk hfresh 1 (.file "d.xml")).2
      (.file "t.xsl") none rfl
    exact htransform.trans rfl
  · have htransform := (validate_after changes start.disk hfresh 1 (.file "d.xml")).2
      (.file "t.xsl") none rfl
    exact htransform.trans rfl

end Moment

end Conformance
