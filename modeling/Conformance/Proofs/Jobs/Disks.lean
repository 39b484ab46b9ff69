import Conformance.Proofs.Schema.Validation

/-!
# Disks

Files change while a program runs, and an engine that is the same otherwise finds other catalogs and
entities. A disk is what there is to be found at one time, and `Engine.on` is the engine at that
time. What was compiled earlier and what is kept for a thread can be carried from one disk to
another, because neither has anything of the disk in it.

* `Validator.on`, `Thread.on` : from one disk to another;
* `Run.asks` : the entities that a call asks for. Two disks with the same entities for these are the
  same to the call (`Run.value_congr`, `Run.notices_congr`);
* `Validator.value_validate_congr` : what a validation depends on, besides the compiled schema.
-/

namespace Conformance

variable {E : Engine} {α : Type}

/-- What can be found at one time: files, and what an engine finds by itself. -/
structure Disk (E : Engine) where
  files : Files
  loadCatalog : String → Option E.LoadedCatalog
  openEntity : (url publicId : Option RawText) → Option E.Entity
  library : List String
  mem_library : ∀ url, hasNul url = false →
    ((openEntity (some (.ofString url)) none).bind fun entity =>
      (E.parseEntity entity url).value openEntity).isSome → url ∈ library

/-- An engine with what it finds on a disk. -/
@[reducible]
def Engine.on (E : Engine) (disk : Disk E) : Engine :=
  { E with
    loadCatalog := disk.loadCatalog
    openEntity := disk.openEntity
    library := disk.library
    mem_library := disk.mem_library }

/-! ## What is carried along -/

namespace Schema.Validator

/-- A compiled schema on a disk. -/
def on (validator : Validator E) (disk : Disk E) : Validator (E.on disk) :=
  ⟨validator.schema, validator.schemaId⟩

/-- A compiled schema away from the disk on which it was compiled. -/
def off {disk : Disk E} (validator : Validator (E.on disk)) : Validator E :=
  ⟨validator.schema, validator.schemaId⟩

end Schema.Validator

namespace Resolution

/-- A resolution on a disk. -/
def on (disk : Disk E) : Resolution E → Resolution (E.on disk)
  | .redirects table => .redirects table
  | .catalog loaded => .catalog loaded

/-- A resolution away from a disk. -/
def off {disk : Disk E} : Resolution (E.on disk) → Resolution E
  | .redirects table => .redirects table
  | .catalog loaded => .catalog loaded

end Resolution

namespace Thread

/-- A thread on a disk. -/
def on (thread : Thread E) (disk : Disk E) : Thread (E.on disk) where
  handler := thread.handler
  resolution := thread.resolution.map (·.on disk)
  collectors := thread.collectors
  journal := thread.journal
  log := thread.log

/-- A thread away from a disk. -/
def off {disk : Disk E} (thread : Thread (E.on disk)) : Thread E where
  handler := thread.handler
  resolution := thread.resolution.map (·.off)
  collectors := thread.collectors
  journal := thread.journal
  log := thread.log

end Thread

/-! ## Calls -/

namespace Run

variable {Entity : Type} {find find' : Option RawText → Option RawText → Option Entity}

/-- The entities that a call asks for when they are found in one way, in order. -/
def asks (find : Option RawText → Option RawText → Option Entity) :
    Run Entity α → List (Option RawText × Option RawText)
  | .done _ => []
  | .report _ _ next => next.asks find
  | .fetch url publicId next => (url, publicId) :: (next (find url publicId)).asks find

/-- A call gives the same wherever it finds the same for what it asks. -/
theorem value_congr {run : Run Entity α}
    (h : ∀ ask ∈ run.asks find, find' ask.1 ask.2 = find ask.1 ask.2) :
    run.value find' = run.value find := by
  induction run with
  | done value => rfl
  | report channel notice next ih => exact ih h
  | fetch url publicId next ih =>
      have hfirst : find' url publicId = find url publicId := h _ List.mem_cons_self
      rw [value, hfirst]
      exact ih _ fun ask hask => h ask (List.mem_cons_of_mem _ hask)

/-- A call reports the same wherever it finds the same for what it asks. -/
theorem notices_congr {run : Run Entity α}
    (h : ∀ ask ∈ run.asks find, find' ask.1 ask.2 = find ask.1 ask.2) :
    run.notices find' = run.notices find := by
  induction run with
  | done value => rfl
  | report channel notice next ih => exact congrArg (notice :: ·) (ih h)
  | fetch url publicId next ih =>
      have hfirst : find' url publicId = find url publicId := h _ List.mem_cons_self
      rw [notices, hfirst]
      exact ih _ fun ask hask => h ask (List.mem_cons_of_mem _ hask)

end Run

/-! ## Validations -/

/-- Two disks are the same to a validation: the document is the same on both, and so are the
entities that the engine asks for in the pass over it. -/
structure Disk.AgreesOn (disk other : Disk E) (validator : Schema.Validator E) (document : Source) :
    Prop where
  loaded : document.load other.files = document.load disk.files
  entities : ∀ {loaded : Loaded}, document.load disk.files = .ok loaded →
    ∀ ask ∈ (validator.pass loaded).asks disk.openEntity,
      other.openEntity ask.1 ask.2 = disk.openEntity ask.1 ask.2

namespace Schema.Validator

/-- What a compiled schema finds in a document is the same on all disks that agree on the
document and on what the engine asks for in the pass over it. -/
theorem value_validate_congr {validator : Validator E} {disk other : Disk E} {document : Source}
    (h : disk.AgreesOn other validator document) :
    ((validator.on other).validate other.files document).value none =
      ((validator.on disk).validate disk.files document).value none := by
  rw [value_validate, value_validate, h.loaded]
  cases hload : document.load disk.files with
  | error error => rfl
  | ok loaded =>
      have hfind : ∀ disk : Disk E, (E.on disk).find none = disk.openEntity := fun disk =>
        funext fun url => funext fun publicId => Engine.find_none url publicId
      have hcode : (validator.on other).code loaded none =
          (validator.on disk).code loaded none := by
        unfold code
        rw [hfind, hfind]
        exact Run.value_congr (h.entities hload)
      have hnotices : (validator.on other).notices loaded none =
          (validator.on disk).notices loaded none := by
        unfold notices
        rw [hfind, hfind]
        exact Run.notices_congr (h.entities hload)
      simp only [found, hcode, hnotices]
      rfl

end Schema.Validator

end Conformance
