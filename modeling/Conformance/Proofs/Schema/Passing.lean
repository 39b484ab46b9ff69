import Conformance.Proofs.Engine.Passing
import Conformance.Proofs.Jobs.Basic
import Conformance.Proofs.Schema.Termination

/-!
# Texts that are passed on for a schema

A schema is compiled, and documents are validated against it, without a text with a NUL being passed
on, as long as no system id has one. While redirects are planned this rests on the walk, which goes
by texts that the engine has given.

* `Plan.hasNul_of_history`, `Plan.exists_journal_lookups` : the lookups that are made for redirects;
* `Plan.exists_unqueryable_of_error` : the one thing that their planning can fail for;
* `Validator.passes_build`, `Validator.passes_validate` : the two jobs.
-/

namespace Conformance

variable {E : Engine}

/-- A source of which the name can be passed on is read as an input with such a name. -/
theorem Source.ending_load {source : Source} (files : Files) (h : hasNul source.systemId = false) :
    Attempt.Ending (fun loaded => hasNul loaded.systemId = false) (fun error => ¬ error.ForNul)
      (source.load files) := by
  cases source with
  | file path =>
      simp only [load]
      split
      · exact h
      · exact fun ⟨_, heq⟩ => nomatch heq
  | memory content systemId => exact h

namespace Schema

/-! ## Planning -/

namespace Plan

variable {catalog : E.LoadedCatalog} {root : Loaded}

/-- The references that a walk follows can be passed on, also if the walk ends in an error. -/
theorem passable_of_history {move : Move E} (h : move ∈ history catalog root) :
    move.reference.Passable := by
  by_cases hparsed : ∃ document : E.Document,
      (Attempt.parse root.octets root.systemId).value none = .ok (some document)
  · obtain ⟨document, hparse⟩ := hparsed
    have hfresh : (Thread.fresh : Thread E).resolution = none := rfl
    obtain ⟨looks, _, hmoves, hproceeds, -⟩ := exists_proceeds catalog hfresh hparse
    -- The move belongs to a document that was looked at, and so does its reference.
    rw [← hmoves] at h
    obtain ⟨look, hlook, hmove⟩ := List.mem_flatMap.1 h
    obtain ⟨hreferences, -⟩ := hproceeds.references look hlook
    have hending : Attempt.Ending _ _ ((Reference.ofDocument look.document).value none) :=
      (Reference.passes_ofDocument look.document).ending
    rw [hreferences] at hending
    exact hending move.reference (List.mem_map_of_mem hmove)
  · rw [history_of_unparsed fun document hparse => hparsed ⟨document, hparse⟩] at h
    cases h

theorem hasNul_of_history {move : Move E} (h : move ∈ history catalog root) :
    ∀ lookup ∈ (move.reference.request move.base).lookups, hasNul lookup.key = false :=
  (passable_of_history h).hasNul_lookups move.base

/-- The journal of the planning has the lookups of all moves of the walk, and none is left out for its
key. -/
theorem exists_journal_lookups (catalog : E.LoadedCatalog) (root : Loaded) {thread : Thread E}
    (hthread : thread.resolution = none) :
    ∃ calls, ((redirects catalog root).outcome.run thread).2.journal = thread.journal ++ calls ∧
      calls.filterMap Call.lookup? = (history catalog root).flatMap (Move.lookups catalog) := by
  refine ⟨_, journal_redirects catalog root hthread, ?_⟩
  rw [filterMap_calls_redirects catalog root fun _ => Call.lookup?_of_not_asks]
  simp only [Move.filterMap_lookup?_asks]

/-- The walk from a root that was parsed can only fail on its way. -/
theorem walk_of_walkFrom_error {document : E.Document} {error : ValidationError}
    (h : (walkFrom catalog root (some document)).value none = .error error) :
    (walk catalog (E.library.length + 1) (start document root.systemId)).value none =
      .error error := by
  rw [walkFrom, Attempt.value_bind (passive_walk _ _ _) fun plan => Attempt.passive_pure plan.table]
    at h
  cases hwalk : (walk catalog (E.library.length + 1) (start document root.systemId)).value none with
  | error error' =>
      rw [hwalk] at h
      cases h
      rfl
  | ok after =>
      rw [hwalk] at h
      cases h

/-- Redirects for a root that can be passed on cannot be planned only if the references cannot be
had of a document that the walk comes to look at. -/
theorem exists_unqueryable_of_error {thread : Thread E} {error : ValidationError}
    (hthread : thread.resolution = none) (hname : hasNul root.systemId = false)
    (hsize : root.octets.length ≤ Attempt.sizeLimit)
    (h : ((redirects catalog root).outcome.run thread).1 = .error error) :
    ∃ document place cause, Crawled catalog root document place ∧ Unqueryable document cause ∧
      error = cause.toValidation := by
  have hparse : (Attempt.parse root.octets root.systemId).value (E := E) none =
      .ok ((E.parse root.octets root.systemId).value (E.find none)) := by
    rw [Attempt.value_parse, if_pos hsize, hname]
    rfl
  rw [fst_run_redirects hthread, hparse] at h
  cases hdocument : (E.parse root.octets root.systemId).value (E.find none) with
  | none =>
      rw [hdocument] at h
      cases h
  | some document =>
      rw [hdocument] at h hparse
      obtain ⟨crawled, place, hcrawled, hfails⟩ :=
        exists_crawled_of_walk_error hparse (walk_of_walkFrom_error h)
      have hending : Attempt.Ending _ _ ((Reference.ofDocument crawled).value none) :=
        (Reference.passes_ofDocument crawled).ending
      rw [hfails] at hending
      obtain ⟨cause, hcause, rfl⟩ := hending
      exact ⟨crawled, place, cause, hcrawled, hcause, rfl⟩

/-- A table that was planned leads to places that can be passed on. -/
theorem passable_of_redirects {thread : Thread E} {table : RedirectTable}
    (hthread : thread.resolution = none) (hname : hasNul root.systemId = false)
    (h : ((redirects catalog root).outcome.run thread).1 = .ok table) :
    (Resolution.redirects table : Resolution E).Passable := by
  intro url target htarget
  rcases walks_of_redirects hthread h with ⟨-, rfl⟩ | ⟨document, after, -, hwalks, rfl⟩
  · cases htarget
  · exact hwalks.hasNul_visited hname (hwalks.mem_visited_of_target htarget)

theorem passes_redirects (catalog : E.LoadedCatalog) (hname : hasNul root.systemId = false) :
    (redirects catalog root).Passes none
      (fun table => (Resolution.redirects table : Resolution E).Passable)
      fun error => ¬ error.ForNul := by
  have hbody : (Attempt.parse root.octets root.systemId >>= walkFrom catalog root).Passive :=
    (Attempt.passive_parse _ _).bind (passive_walkFrom catalog root)
  have hfresh : (Thread.fresh : Thread E).resolution = none := rfl
  have hending : Attempt.Ending (fun table => (Resolution.redirects table : Resolution E).Passable)
      (fun error => ¬ error.ForNul)
      ((Attempt.parse root.octets root.systemId >>= walkFrom catalog root).value none) := by
    -- The body is passive, so in its bracket it ends as planning does on a fresh thread.
    rw [show none = (Thread.fresh : Thread E).resolution from rfl, ← run_redirects_fst]
    cases hrun : ((redirects catalog root).outcome.run (Thread.fresh : Thread E)).1 with
    | ok table => exact passable_of_redirects hfresh hname hrun
    | error error =>
        by_cases hsize : root.octets.length ≤ Attempt.sizeLimit
        · obtain ⟨_, _, cause, -, hcause, rfl⟩ :=
            exists_unqueryable_of_error hfresh hname hsize hrun
          exact ValidationError.not_forNul_toValidation hcause.ne_nulInText
        · rw [fst_run_redirects hfresh, Attempt.value_parse, if_neg hsize] at hrun
          cases hrun
          exact ValidationError.not_forNul_toValidation (by simp)
  refine (Attempt.Passes.capturing (fun _ => hbody.passes ?_ hending) root.systemId).bind
    fun captured hcaptured => Attempt.passes_ofExcept hcaptured
  exact fun inForce hinForce => nomatch hinForce

end Plan

/-! ## Jobs -/

namespace Validator

theorem passes_resolution (catalog : Option String) {schema : Loaded}
    (hname : hasNul schema.systemId = false) :
    (resolution (E := E) catalog schema).Passes none
      (fun redirects => ∀ inForce ∈ redirects, inForce.Passable) fun error => ¬ error.ForNul := by
  cases catalog with
  | none => exact Attempt.passes_pure fun inForce hinForce => nomatch hinForce
  | some path =>
      refine (Attempt.passes_loadCatalog fun ⟨_, heq⟩ => nomatch heq).bind fun catalog _ => ?_
      refine (Plan.passes_redirects catalog hname).bind fun table htable => ?_
      refine Attempt.passes_pure fun inForce hinForce => ?_
      cases hinForce
      exact htable

theorem passes_compileIn {resolution : Option (Resolution E)}
    (hresolution : ∀ inForce ∈ resolution, inForce.Passable) (collector : Nat) {schema : Loaded}
    (hname : hasNul schema.systemId = false) :
    (compileIn collector schema).Passes resolution (fun _ => True) fun error => ¬ error.ForNul := by
  refine (Attempt.passes_parse hresolution hname
    (ValidationError.not_forNul_toValidation (by simp))).bind fun document _ => ?_
  cases document with
  | none => exact Attempt.passes_pure trivial
  | some document =>
      exact Attempt.passes_compileSchema hresolution collector
        (ValidationError.not_forNul_toValidation (by simp))

theorem passes_build (files : Files) {schema : Source} (catalog : Option String)
    (hname : hasNul schema.systemId = false) :
    (build (E := E) files schema catalog).Passes none (fun _ => True)
      fun error => ¬ error.ForNul := by
  refine (Attempt.passes_ofExcept (schema.ending_load files hname)).bind fun loaded hloaded => ?_
  refine (passes_resolution catalog hloaded).bind fun redirects hredirects => ?_
  have hcompile (collector : Nat) : (Attempt.within redirects (compileIn collector loaded)).Passes
      none (fun _ => True) fun error => ¬ error.ForNul := by
    refine .within redirects (passes_compileIn ?_ collector hloaded)
    rwa [Option.or_none]
  refine (Attempt.Passes.capturing hcompile loaded.systemId).bind fun (outcome, _) houtcome => ?_
  refine (Attempt.passes_ofExcept houtcome).bind fun compiled _ => ?_
  cases compiled with
  | none => exact Attempt.passes_throw fun ⟨_, heq⟩ => nomatch heq
  | some compiled => exact Attempt.passes_pure trivial

theorem ending_conclude (collector : Collector) (verdict : Verdict) :
    Attempt.Ending (fun _ => True) (fun error => ¬ error.ForNul) (conclude collector verdict) := by
  cases verdict with
  | valid | invalid => trivial
  | aborted code =>
      simp only [conclude]
      split
      · trivial
      · exact ValidationError.not_forNul_toValidation (by simp)

theorem passes_validate {resolution : Option (Resolution E)}
    (hresolution : ∀ inForce ∈ resolution, inForce.Passable) (validator : Validator E)
    (files : Files) {document : Source} (hname : hasNul document.systemId = false) :
    (validator.validate files document).Passes resolution (fun _ => True)
      fun error => ¬ error.ForNul := by
  refine (Attempt.passes_ofExcept (document.ending_load files hname)).bind fun loaded hloaded => ?_
  have hstream (collector : Nat) : (Attempt.stream collector validator.schema loaded).Passes
      resolution (fun _ => True) fun error => ¬ error.ForNul :=
    Attempt.passes_stream hresolution collector _ hloaded
      fun _ herror => ValidationError.not_forNul_toValidation herror
  refine (Attempt.Passes.capturing hstream loaded.systemId).bind
    fun (outcome, collector) houtcome => ?_
  refine (Attempt.passes_ofExcept houtcome).bind fun code _ => ?_
  exact Attempt.passes_ofExcept (ending_conclude collector (.ofCode code))

end Validator

end Schema

end Conformance
