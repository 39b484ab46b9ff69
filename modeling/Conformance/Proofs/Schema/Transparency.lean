import Conformance.Proofs.Jobs.Rest
import Conformance.Proofs.Schema.Building
import Conformance.Proofs.Schema.Crawling

/-!
# Catalogs that resolve nothing

A schema is compiled twice here, without a catalog and with one that has no answer to anything that
the walk asks. The walk parses and reads documents that are not read otherwise, but its table stays
empty, and under an empty table the engine is served as under none.

* `Call.Straight` : calls among which every entity is opened under the URL and the public id that
  were asked for;
* `Engine.find_redirects_nil`, `Run.calls_redirects_nil` : the empty table;
* `Plan.plans_of_unresolved` : what such a catalog plans;
* `build_of_unresolved` : the two compilations end alike, and the engine loads alike in them.
-/

namespace Conformance

variable {E : Engine} {α : Type}

/-! ## Loads -/

namespace Call

/-- Whether a call is about an entity. -/
def ofEntity : Call → Bool
  | .load .. | .opened .. => true
  | _ => false

/-- Every entity is opened as it was asked for, right then, and none is opened unasked. -/
inductive Straight : List Call → Prop where
  | nil : Straight []
  | other {call : Call} {calls : List Call} (hcall : call.ofEntity = false) (h : Straight calls) :
      Straight (call :: calls)
  | load (url publicId : Option RawText) (found : Bool) {calls : List Call} (h : Straight calls) :
      Straight (.load url publicId :: .opened url publicId found :: calls)

theorem Straight.append {calls calls' : List Call} (h : Straight calls) (h' : Straight calls') :
    Straight (calls ++ calls') := by
  induction h with
  | nil => exact h'
  | other hcall _ ih => exact .other hcall ih
  | load url publicId found _ ih => exact .load url publicId found ih

end Call

/-! ## The empty table -/

theorem Thread.fetch_redirects_nil (url publicId : Option RawText) :
    ((under (E := E) (some (.redirects []))).fetch url publicId).1 =
        ((under (E := E) none).fetch url publicId).1 ∧
      ((under (E := E) (some (.redirects []))).fetch url publicId).2.journal =
        ((under (E := E) none).fetch url publicId).2.journal := by
  simp only [fetch, target, consulted, under]
  cases url.bind RawText.text? <;> exact ⟨rfl, rfl⟩

theorem Engine.find_redirects_nil : E.find (some (.redirects [])) = E.find none := by
  funext url publicId
  exact (Thread.fetch_redirects_nil url publicId).1

theorem Run.calls_redirects_nil (call : Run E.Entity α) :
    call.calls (some (.redirects [])) = call.calls none := by
  induction call with
  | done value => rfl
  | report channel notice next ih => exact ih
  | fetch url publicId next ih =>
      simp only [calls, ih, Engine.find_redirects_nil, (Thread.fetch_redirects_nil url publicId).2]

/-- Without a resolution the engine gets what it asks for. -/
theorem Run.straight_calls (call : Run E.Entity α) : Call.Straight (call.calls none) := by
  induction call with
  | done value => exact .nil
  | report channel notice next ih => exact ih
  | fetch url publicId next ih =>
      have hrest : (Thread.under (E := E) none).AtRest := ⟨rfl, rfl⟩
      rw [calls, hrest.fetch]
      exact .load url publicId _ (ih _)

namespace Attempt

variable {input : Loaded} {calls : List Call} {notices : List Notice}
  {outcome : Except ValidationError (Option E.Document)}

theorem Parses.redirects_nil (h : Parses none input calls notices outcome) :
    Parses (some (.redirects [])) input calls notices outcome := by
  cases h with
  | tooLarge h => exact .tooLarge h
  | unnamed hsize h => exact .unnamed hsize h
  | parsed hsize hname h =>
      rw [← Run.calls_redirects_nil, ← Engine.find_redirects_nil]
      exact .parsed hsize hname (by rw [Engine.find_redirects_nil]; exact h)

theorem Parses.straight (h : Parses none input calls notices outcome) : Call.Straight calls := by
  cases h with
  | tooLarge h => exact .nil
  | unnamed hsize h => exact .nil
  | parsed hsize hname h => exact .other rfl (Run.straight_calls _)

end Attempt

namespace Schema

/-! ## Planning -/

namespace Plan

variable {catalog : E.LoadedCatalog} {root : Loaded}

/-- If the catalog resolves none of the references that a walk meets, its table is empty. -/
theorem Walks.table_eq_nil {document : E.Document} {base : String} {moves : List (Move E)}
    {after : Plan E} (h : Walks catalog (start document base) moves after)
    (hnone : ∀ move ∈ moves, move.answer catalog = none) : after.table = [] := by
  cases htable : after.table with
  | nil => rfl
  | cons entry rest =>
      have htarget : after.table.target? entry.1 = some entry.2 := by
        rw [htable, RedirectTable.target?, List.lookup_cons_self]
      rcases h.reaches.entry htarget with hstart | ⟨move, hmove, -, hanswer, -⟩
      · cases hstart
      · rw [hnone move hmove] at hanswer
        cases hanswer

theorem plans_of_unresolved {calls : List Call} {notices : List Notice}
    {document : Option E.Document}
    (h : Attempt.Parses none root calls notices (.ok document))
    (hcrawled : ∀ document place, Crawled catalog root document place →
      ∃ references, (Reference.ofDocument document).value none = .ok references)
    (hnone : ∀ move ∈ history catalog root, move.answer catalog = none) :
    ∃ planning, Plans none catalog root planning (.ok []) := by
  cases document with
  | none => exact ⟨_, .unparsed h⟩
  | some document =>
      have hparse := h.hears.value_eq (Attempt.passive_parse _ _)
      cases hwalk : (walkThrough catalog root document).value none with
      | error error =>
          obtain ⟨failing, place, hfailing, hfails⟩ := exists_crawled_of_walk_error hparse hwalk
          obtain ⟨references, hreferences⟩ := hcrawled failing place hfailing
          rw [hreferences] at hfails
          cases hfails
      | ok after =>
          have hwalks : Walks catalog (start document root.systemId) (history catalog root)
              after := by
            rw [history, hparse]
            exact walks_of_walk hwalk (remaining_start _ _)
          have hplans := Plans.walked h hwalk
          rw [hwalks.table_eq_nil hnone] at hplans
          exact ⟨_, hplans⟩

end Plan

namespace Validator

/-! ## Compiling -/

theorem Compiling.redirects_nil {schema : Loaded} {calls : List Call} {notices : List Notice}
    {outcome : Except ValidationError (Option E.Schema)}
    (h : Compiling none schema calls notices outcome) :
    Compiling (some (.redirects [])) schema calls notices outcome := by
  cases h with
  | refused h => exact .refused h.redirects_nil
  | unparsed h => exact .unparsed h.redirects_nil
  | unbegun h hcompile => exact .unbegun h.redirects_nil hcompile
  | compiled h hcompile hrun =>
      rw [← Run.calls_redirects_nil, ← Engine.find_redirects_nil]
      exact .compiled h.redirects_nil hcompile (by rw [Engine.find_redirects_nil]; exact hrun)

theorem Compiling.straight {schema : Loaded} {calls : List Call} {notices : List Notice}
    {outcome : Except ValidationError (Option E.Schema)}
    (h : Compiling none schema calls notices outcome) : Call.Straight calls := by
  cases h with
  | refused h => exact h.straight
  | unparsed h => exact h.straight
  | unbegun h hcompile => exact h.straight.append (.other rfl .nil)
  | compiled h hcompile hrun => exact h.straight.append (.other rfl (Run.straight_calls _))

/-- Either nothing can be passed on to be parsed, or a catalog that plans no redirects leads to the
empty table. -/
theorem Compiling.resolves {schema : Loaded} {path : String} {catalog : E.LoadedCatalog}
    {calls : List Call} {notices : List Notice} {outcome : Except ValidationError (Option E.Schema)}
    (h : Compiling none schema calls notices outcome)
    (hcatalog : Attempt.LoadsCatalog path [.catalog path] (.ok catalog))
    (hplans : ∀ {calls notices document},
      Attempt.Parses (E := E) none schema calls notices (.ok document) →
        ∃ planning, Plan.Plans none catalog schema planning (.ok [])) :
    (∃ error, calls = [] ∧ outcome = .error error ∧
        Attempt.Parses (E := E) none schema [] notices (.error error)) ∨
      ∃ planning, Resolves (E := E) none schema (some path) planning
        (.ok (some (.redirects []))) := by
  have hresolves : ∀ {calls notices document},
      Attempt.Parses (E := E) none schema calls notices (.ok document) → ∃ planning,
        Resolves (E := E) none schema (some path) planning (.ok (some (.redirects []))) := by
    intro calls notices document hparses
    obtain ⟨planning, h⟩ := hplans hparses
    exact ⟨_, .planned hcatalog h⟩
  cases h with
  | refused h =>
      have hcalls : calls = [] := by cases h <;> rfl
      subst hcalls
      exact Or.inl ⟨_, rfl, rfl, h⟩
  | unparsed h => exact Or.inr (hresolves h)
  | unbegun h hcompile => exact Or.inr (hresolves h)
  | compiled h hcompile hrun => exact Or.inr (hresolves h)

/-- What comes of compiling without a catalog comes of it with one that plans no redirects, by the
same calls after those of planning. -/
theorem Builds.of_unplanned {files : Files} {schema : Source} {path : String}
    {catalog : E.LoadedCatalog} {calls : List Call}
    {outcome : Except ValidationError (Validator E)}
    (h : Builds none files schema none calls outcome)
    (hcatalog : Attempt.LoadsCatalog path [.catalog path] (.ok catalog))
    (hplans : ∀ {loaded : Loaded}, schema.load files = .ok loaded →
      ∀ {calls notices document}, Attempt.Parses (E := E) none loaded calls notices (.ok document) →
        ∃ planning, Plan.Plans none catalog loaded planning (.ok [])) :
    ∃ planning, Builds none files schema (some path) (planning ++ calls) outcome := by
  cases h with
  | unread h => exact ⟨[], .unread h⟩
  | unresolved hschema h => cases h
  | failed hschema hredirects h =>
      cases hredirects
      rcases h.resolves hcatalog (hplans hschema) with ⟨error, rfl, heq, h⟩ | ⟨planning, hresolves⟩
      · cases heq
        refine ⟨[.catalog path], ?_⟩
        rw [List.append_nil]
        exact .unresolved hschema (.unplanned hcatalog (.refused h))
      · exact ⟨planning, .failed hschema hresolves h.redirects_nil⟩
  | uncompiled hschema hredirects h =>
      cases hredirects
      rcases h.resolves hcatalog (hplans hschema) with ⟨error, -, heq, -⟩ | ⟨planning, hresolves⟩
      · cases heq
      · exact ⟨planning, .uncompiled hschema hresolves h.redirects_nil⟩
  | built hschema hredirects h =>
      cases hredirects
      rcases h.resolves hcatalog (hplans hschema) with ⟨error, -, heq, -⟩ | ⟨planning, hresolves⟩
      · cases heq
      · exact ⟨planning, .built hschema hresolves h.redirects_nil⟩

theorem Builds.straight {files : Files} {schema : Source} {calls : List Call}
    {outcome : Except ValidationError (Validator E)}
    (h : Builds none files schema none calls outcome) : Call.Straight calls := by
  cases h with
  | unread h => exact .nil
  | unresolved hschema h => cases h
  | failed hschema hredirects h => cases hredirects; exact h.straight
  | uncompiled hschema hredirects h => cases hredirects; exact h.straight
  | built hschema hredirects h => cases hredirects; exact h.straight

/-- A catalog that loads, and resolves none of the references that the walk meets, changes nothing,
as long as references can be had from all documents that the walk comes to look at. The schema
compiles, or fails to, as it does without a catalog; the engine makes the same calls meanwhile, and
every entity that it asks for is opened as it asks for it. -/
theorem build_of_unresolved {files : Files} {schema : Source} {path : String}
    {catalog : E.LoadedCatalog} (hpath : hasNul path = false)
    (hcatalog : E.loadCatalog path = some catalog)
    (hcrawled : ∀ loaded, schema.load files = .ok loaded → ∀ document place,
      Plan.Crawled catalog loaded document place →
        ∃ references, (Reference.ofDocument document).value none = .ok references)
    (hunresolved : ∀ loaded, schema.load files = .ok loaded →
      ∀ move ∈ Plan.history catalog loaded, move.answer catalog = none)
    {thread : Thread E} (hthread : thread.resolution = none) :
    ∃ outcome planning compiling after after',
      (build files schema (some path)).outcome.run thread = (outcome, after) ∧
        (build files schema none).outcome.run thread = (outcome, after') ∧
        after.journal = thread.journal ++ planning ++ compiling ∧
        after'.journal = thread.journal ++ compiling ∧ Call.Straight compiling := by
  obtain ⟨compiling, outcome, hwithout⟩ := exists_builds (E := E) none files schema none
  obtain ⟨planning, hwith⟩ := hwithout.of_unplanned (.loaded hpath hcatalog)
    fun hschema _ _ _ hparses =>
      Plan.plans_of_unresolved hparses (hcrawled _ hschema) (hunresolved _ hschema)
  obtain ⟨after, hrun, -, hjournal⟩ := hwith.does thread hthread
  obtain ⟨after', hrun', -, hjournal'⟩ := hwithout.does thread hthread
  refine ⟨outcome, planning, compiling, after, after', hrun, hrun', ?_, hjournal',
    hwithout.straight⟩
  rw [hjournal, List.append_assoc]

/-- A catalog that knows a schema by its location, but not for the namespace that is asked for. -/
def unaskedEntries : Catalog.Entries :=
  ⟨[], [("party.xsd", "other.xsd")], []⟩

/-- A root that imports a schema on another host and a local one, which imports the root in turn.
The engine loads both imports when it compiles. -/
def unlisted : Engine :=
  { Engine.ofSheets [("root.xsd", [⟨"urn:far", "http://far/x.xsd"⟩, ⟨"urn:p", "party.xsd"⟩]),
      ("party.xsd", [⟨"", "root.xsd"⟩])] with
    loadCatalog := fun _ => some unaskedEntries
    compileSchema := fun _ => some <| .fetch (some (.ofString "http://far/x.xsd")) none fun _ =>
      .fetch (some (.ofString "party.xsd")) none fun entity => .done (entity.map fun _ => ()) }

theorem exists_references_unlisted {document : unlisted.Document} {place : String}
    (h : Plan.Crawled (E := unlisted) unaskedEntries ⟨[], "root.xsd"⟩ document place) :
    ∃ references, (Reference.ofDocument (E := unlisted) document).value none = .ok references := by
  cases h with
  | root hparse =>
      cases hparse
      exact ⟨_, rfl⟩
  | @found move _ _ hmove hfinds =>
      have hall : ∀ move ∈ Plan.history (E := unlisted) unaskedEntries ⟨[], "root.xsd"⟩,
          ∀ place ∈ move.next (E := unlisted) unaskedEntries,
            ∀ found ∈ unlisted.documentAt none place,
              ((Reference.ofDocument (E := unlisted) found).value none).toBool = true := by
        decide +kernel
      have hfound := hall move hmove place hfinds.next document hfinds.document
      cases hreferences : (Reference.ofDocument (E := unlisted) document).value none with
      | error error =>
          rw [hreferences] at hfound
          cases hfound
      | ok references => exact ⟨references, rfl⟩

theorem build_of_unresolved_unlisted :
    let root : Source := .memory [] "root.xsd"
    let catalogued := (build (E := unlisted) noFiles root (some "c.xml")).outcome.run Thread.fresh
    let plain := (build (E := unlisted) noFiles root none).outcome.run Thread.fresh
    catalogued.1 = .ok ⟨(), "root.xsd"⟩ ∧ .read "party.xsd" ∈ catalogued.2.journal ∧
      plain.2.journal <:+ catalogued.2.journal ∧
      plain.2.journal = [.parse "root.xsd", .compileSchema,
        .load (some (.ofString "http://far/x.xsd")) none,
        .opened (some (.ofString "http://far/x.xsd")) none false,
        .load (some (.ofString "party.xsd")) none,
        .opened (some (.ofString "party.xsd")) none true] := by
  have hpath : hasNul "c.xml" = false := by decide
  have hcatalog : unlisted.loadCatalog "c.xml" = some unaskedEntries := rfl
  have hcrawled : ∀ loaded, (Source.memory [] "root.xsd").load noFiles = .ok loaded →
      ∀ document place, Plan.Crawled (E := unlisted) unaskedEntries loaded document place →
        ∃ references,
          (Reference.ofDocument (E := unlisted) document).value none = .ok references := by
    rintro _ ⟨⟩ document place h
    exact exists_references_unlisted h
  have hunresolved : ∀ loaded, (Source.memory [] "root.xsd").load noFiles = .ok loaded →
      ∀ move ∈ Plan.history (E := unlisted) unaskedEntries loaded,
        move.answer (E := unlisted) unaskedEntries = none := by
    rintro _ ⟨⟩
    decide +kernel
  have hfresh : (Thread.fresh : Thread unlisted).resolution = none := rfl
  obtain ⟨outcome, planning, compiling, after, after', hrun, hrun', hjournal, hjournal', -⟩ :=
    build_of_unresolved hpath hcatalog hcrawled hunresolved hfresh
  refine ⟨?_, by decide +kernel, ?_, rfl⟩
  · rw [hrun]
    exact (congrArg Prod.fst hrun').symm
  · rw [hrun, hrun', hjournal, hjournal']
    exact ⟨planning, rfl⟩

end Validator

end Schema

end Conformance
