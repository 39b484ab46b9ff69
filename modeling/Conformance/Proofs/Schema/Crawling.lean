import Conformance.Proofs.Engine.Passing
import Conformance.Proofs.Schema.History

/-!
# What a walk crawls

A walk goes by texts that it got from the engine: the locations of references and the answers of a
catalog. All of them can be passed back to the engine, so there is only one thing left that can
fail: to get the references out of a document.

* `Unqueryable` : why the references of a document cannot be had. If they can, they are passable
  (`passes_ofDocument`);
* `Attempt.Gives` : what is so of every value of an attempt;
* `Reference.Passable`, `Plan.Passable` : texts without NUL, as the engine gives them
  (`gives_ofDocument`, `hasNul_of_answer`) and every move keeps them (`Move.Leads.passable`);
* `Move.Finds`, `Plan.Crawled` : the documents that a walk comes to look at;
* `exists_crawled_of_walk_error` : a walk ends in an error only if the references of one of these
  cannot be had.
-/

namespace Conformance

variable {E : Engine} {α β : Type}

/-! ## Values of attempts -/

namespace Attempt

/-- Attempts of which every value has a property. -/
def Gives (P : α → Prop) (attempt : Attempt E α) : Prop :=
  ∀ (thread : Thread E) (value : α), (attempt.outcome.run thread).1 = .ok value → P value

theorem Passes.gives {P : α → Prop} {R : ValidationError → Prop} {attempt : Attempt E α}
    (h : ∀ resolution, attempt.Passes resolution P R) : attempt.Gives P := by
  intro thread value hrun
  obtain ⟨-, -, hending⟩ := h thread.resolution thread rfl
  rw [hrun] at hending
  exact hending

end Attempt

namespace Schema

/-! ## Texts of references -/

/-- Why the references of a document cannot be had: it has no XPath context, the namespace gets no
name there, or one of the expressions cannot be evaluated. -/
inductive Unqueryable (document : E.Document) : EngineError → Prop
  | unopened (h : E.opensXPath document = false) : Unqueryable document .outOfMemory
  | unregistered (h : E.registers document Query.schemaPrefix Catalog.schemaNamespace = false) :
      Unqueryable document
        (.query ("xmlns:" ++ Query.schemaPrefix ++ "=" ++ Catalog.schemaNamespace))
  | unselected (h : E.select document Query.composition = none) :
      Unqueryable document (.query Query.composition)
  | unevaluated {node : Option E.Node} {expression : String}
      (h : E.evaluate document node expression = none) : Unqueryable document (.query expression)

theorem Unqueryable.ne_nulInText {document : E.Document} {cause : EngineError}
    (h : Unqueryable document cause) (text : String) : cause ≠ .nulInText text := by
  cases h <;> exact fun heq => nomatch heq

namespace Reference

/-- A reference whose texts can be passed on. -/
structure Passable (reference : Reference) : Prop where
  namespaceUri : hasNul reference.namespaceUri = false
  location : hasNul reference.location = false

section

variable {resolution : Option (Resolution E)}

theorem passes_evaluate (document : E.Document) (node : Option E.Node) (expression : String) :
    (Attempt.evaluate document node expression).Passes resolution (hasNul · = false)
      fun error => ∃ cause, Unqueryable document cause ∧ error = cause.toValidation :=
  Attempt.passes_evaluate fun h => ⟨_, .unevaluated h, rfl⟩

theorem passes_ofNode? (document : E.Document) {targetNamespace : String} (node : E.Node)
    (htarget : hasNul targetNamespace = false) :
    (ofNode? document targetNamespace node).Passes resolution
      (fun reference => ∀ found ∈ reference, found.Passable)
      fun error => ∃ cause, Unqueryable document cause ∧ error = cause.toValidation := by
  refine (passes_evaluate document _ _).bind fun location hlocation => ?_
  split
  · exact Attempt.passes_pure fun found hfound => nomatch hfound
  · refine (passes_evaluate document _ _).bind fun kind _ => ?_
    split
    · refine (passes_evaluate document _ _).bind fun imported himported => ?_
      refine Attempt.passes_pure fun found hfound => ?_
      cases hfound
      exact ⟨himported, hlocation⟩
    · refine Attempt.passes_pure fun found hfound => ?_
      cases hfound
      exact ⟨htarget, hlocation⟩

theorem passes_ofNodes (document : E.Document) {targetNamespace : String} (nodes : List E.Node)
    (htarget : hasNul targetNamespace = false) :
    (ofNodes document targetNamespace nodes).Passes resolution
      (fun references => ∀ reference ∈ references, reference.Passable)
      fun error => ∃ cause, Unqueryable document cause ∧ error = cause.toValidation := by
  induction nodes with
  | nil => exact Attempt.passes_pure fun reference hmem => absurd hmem List.not_mem_nil
  | cons node nodes ih =>
      refine (passes_ofNode? document node htarget).bind fun first hfirst => ?_
      refine ih.bind fun rest hrest => Attempt.passes_pure fun reference hmem => ?_
      rcases List.mem_append.1 hmem with hmem | hmem
      · exact hfirst reference (Option.mem_toList.1 hmem)
      · exact hrest reference hmem

/-- The references of a document can be passed on, if they can be had. -/
theorem passes_ofDocument (document : E.Document) :
    (ofDocument document).Passes resolution
      (fun references => ∀ reference ∈ references, reference.Passable)
      fun error => ∃ cause, Unqueryable document cause ∧ error = cause.toValidation := by
  refine (Attempt.passes_openXPath fun h => ⟨_, .unopened h, rfl⟩).bind fun _ _ => ?_
  refine (Attempt.passes_register fun h => ⟨_, .unregistered h, rfl⟩).bind fun _ _ => ?_
  refine (passes_evaluate document _ _).bind fun targetNamespace htarget => ?_
  refine (Attempt.passes_select fun h => ⟨_, .unselected h, rfl⟩).bind fun nodes _ => ?_
  exact passes_ofNodes document nodes htarget

end

theorem gives_ofDocument (document : E.Document) :
    (ofDocument document).Gives fun references =>
      ∀ reference ∈ references, reference.Passable :=
  Attempt.Passes.gives fun _ => passes_ofDocument document

/-- A passable reference is looked up under keys that can be passed on. -/
theorem Passable.hasNul_lookups {reference : Reference} (h : reference.Passable) (base : String) :
    ∀ lookup ∈ (reference.request base).lookups, hasNul lookup.key = false := by
  have hsystem : hasNul (reference.request base).effectiveSystemId = false := by
    rw [Catalog.Request.effectiveSystemId]
    split
    · rw [hasNul_append, hasNul_append]
      simp only [request, h.namespaceUri, h.location, Bool.or_false, Bool.false_or]
      decide
    · exact h.location
  intro lookup hlookup
  rw [Catalog.Request.lookups_of_none rfl] at hlookup
  exact List.mem_singleton.1 hlookup ▸ hsystem

/-- What a catalog answers can be passed on. -/
theorem hasNul_of_answer {catalog : E.LoadedCatalog} {reference : Reference} {base answer : String}
    (h : reference.answer catalog base = some answer) : hasNul answer = false := by
  obtain ⟨lookup, -, hlookup⟩ := List.exists_of_findSome?_eq_some h
  exact Engine.hasNul_ask hlookup

end Reference

/-! ## Documents that are found -/

/-- A move finds a document at a place where the walk has not been. -/
structure Move.Finds (catalog : E.LoadedCatalog) (move : Move E) (document : E.Document)
    (place : String) : Prop where
  next : move.next catalog = some place
  new : place ∉ move.plan.visited
  document : E.documentAt none place = some document

namespace Plan

/-- A walk that goes by texts which can be passed on. -/
structure Passable (plan : Plan E) : Prop where
  table : ∀ {url target : String}, plan.table.target? url = some target → hasNul target = false
  pending : ∀ {document : E.Document} {place : String}, (document, place) ∈ plan.pending →
    hasNul place = false

theorem passable_start (root : E.Document) {place : String} (hplace : hasNul place = false) :
    (start root place).Passable where
  table htarget := nomatch htarget
  pending hmem := by
    cases List.mem_singleton.1 hmem
    exact hplace

theorem Passable.of_pending {plan : Plan E} {document : E.Document} {base : String}
    {pending : List (E.Document × String)} (h : plan.Passable)
    (hpending : plan.pending = (document, base) :: pending) :
    hasNul base = false ∧ ({ plan with pending } : Plan E).Passable := by
  have hfirst : (document, base) ∈ plan.pending := hpending ▸ List.mem_cons_self
  refine ⟨h.pending hfirst, h.table, ?_⟩
  exact fun hmem => h.pending (hpending ▸ List.mem_cons_of_mem _ hmem)

/-- The documents that the walk from a root comes to look at. -/
inductive Crawled (catalog : E.LoadedCatalog) (root : Loaded) : E.Document → String → Prop where
  | root {document : E.Document}
      (h : (Attempt.parse root.octets root.systemId).value none = .ok (some document)) :
      Crawled catalog root document root.systemId
  | found {move : Move E} {document : E.Document} {place : String}
      (hmove : move ∈ history catalog root) (h : move.Finds catalog document place) :
      Crawled catalog root document place

end Plan

namespace Move

variable {catalog : E.LoadedCatalog}

/-- The place that a move goes on to can be passed on. -/
theorem hasNul_next {move : Move E} (hplan : move.plan.Passable)
    (hlocation : hasNul move.reference.location = false) {place : String}
    (h : move.next catalog = some place) : hasNul place = false := by
  cases hanswer : move.answer catalog with
  | none =>
      rw [next_of_none hanswer] at h
      split at h
      · cases h
      · cases h
        exact Reference.hasNul_url move.base hlocation
  | some answer =>
      rw [next_of_some hanswer, directed_of_some hanswer, RedirectTable.target?_add, if_pos rfl,
        Option.some_inj] at h
      subst h
      cases hold : move.plan.table.target? move.url with
      | none => exact Reference.hasNul_of_answer hanswer
      | some old => exact hplan.table hold

namespace Leads

variable {move : Move E} {after : Plan E}

/-- A document that is still to be looked at was so before, or the move has found it. -/
theorem pending_origin (h : move.Leads catalog after) {document : E.Document} {place : String}
    (hmem : (document, place) ∈ after.pending) :
    (document, place) ∈ move.plan.pending ∨ move.Finds catalog document place := by
  cases h with
  | nowhere hnext => exact Or.inl hmem
  | again hnext hmet =>
      rw [directed_pending] at hmem
      exact Or.inl hmem
  | reads hnext hnew hplace =>
      rw [Plan.arrive, directed_pending] at hmem
      rcases List.mem_append.1 hmem with hmem | hmem
      · obtain ⟨found, hfound, heq⟩ := Option.map_eq_some_iff.1 (Option.mem_toList.1 hmem)
        cases heq
        exact Or.inr ⟨hnext, hnew, hfound⟩
      · exact Or.inl hmem

theorem passable (h : move.Leads catalog after) (hplan : move.plan.Passable)
    (hlocation : hasNul move.reference.location = false) : after.Passable where
  table htarget := by
    rcases h.entry htarget with hold | ⟨-, hanswer, -⟩
    · exact hplan.table hold
    · exact Reference.hasNul_of_answer hanswer
  pending hmem := by
    rcases h.pending_origin hmem with hold | hfound
    · exact hplan.pending hold
    · exact hasNul_next hplan hlocation hfound.next

end Leads

end Move

namespace Plan

variable {catalog : E.LoadedCatalog}

/-- A document that is still to be looked at was so before, or one of the moves has found it. -/
theorem Follows.pending_origin {base : String} {plan after : Plan E} {references : List Reference}
    {moves : List (Move E)} (h : Follows catalog base plan references moves after)
    {document : E.Document} {place : String} (hmem : (document, place) ∈ after.pending) :
    (document, place) ∈ plan.pending ∨ ∃ move ∈ moves, move.Finds catalog document place := by
  induction h with
  | nil plan => exact Or.inl hmem
  | cons hlocation hmove hrest ih =>
      rcases ih hmem with hbetween | ⟨move, hmove', hfinds⟩
      · rcases hmove.pending_origin hbetween with hold | hfinds
        · exact Or.inl hold
        · exact Or.inr ⟨_, List.mem_cons_self, hfinds⟩
      · exact Or.inr ⟨move, List.mem_cons_of_mem _ hmove', hfinds⟩

/-! ## What can fail -/

/-- Where a passable reference leads, the walk can go. -/
theorem exists_go (catalog : E.LoadedCatalog) (base : String) {plan : Plan E}
    {reference : Reference} (hplan : plan.Passable) (hreference : reference.Passable) :
    ∃ after, Attempt.value (match
      plan.direct (reference.url E base) (reference.answer catalog base) with
        | (plan, some place) => plan.visit place
        | (plan, none) => pure plan) none = .ok after := by
  have hdirect := Move.direct_eq catalog ⟨plan, base, reference⟩
  rw [Move.url, Move.answer] at hdirect
  rw [hdirect]
  cases hnext : Move.next catalog ⟨plan, base, reference⟩ with
  | none => exact ⟨_, rfl⟩
  | some place =>
      have hplace := Move.hasNul_next hplan hreference.location hnext
      simp only [value_visit, hplace, Bool.false_eq_true, if_false]
      split <;> exact ⟨_, rfl⟩

/-- A passable reference is followed without an error. -/
theorem exists_follow (catalog : E.LoadedCatalog) {base : String} {plan : Plan E}
    {reference : Reference} (hplan : plan.Passable) (hbase : hasNul base = false)
    (hreference : reference.Passable) :
    ∃ after, (follow catalog base plan reference).value none = .ok after ∧ after.Passable := by
  have hbuilt : (Attempt.buildUri (E := E) reference.location base).value none =
      .ok ((E.buildUri reference.location base).map RawText.lossy) := by
    rw [Attempt.value_buildUri, hreference.location, hbase]
    rfl
  have hsearch : (Attempt.lift (Session.search catalog (reference.request base).lookups)).value
      none = .ok (reference.answer catalog base) := by
    rw [Attempt.value_lift, Session.run_search]
    rfl
  obtain ⟨after, hgo⟩ := exists_go catalog base hplan hreference
  have hfollow : (follow catalog base plan reference).value none = .ok after :=
    (Attempt.value_bind_eq_ok (Attempt.passive_buildUri _ _) fun _ =>
      (Attempt.passive_lift (Session.passive_search _ _)).bind fun _ => passive_go _).2
        ⟨_, hbuilt, (Attempt.value_bind_eq_ok (Attempt.passive_lift (Session.passive_search _ _))
          fun _ => passive_go _).2 ⟨_, hsearch, hgo⟩⟩
  obtain ⟨hlocation, hleads⟩ := leads_of_follow hfollow
  exact ⟨after, hfollow, hleads.passable hplan hlocation⟩

theorem exists_followAll (catalog : E.LoadedCatalog) {base : String} {plan : Plan E}
    {references : List Reference} (hplan : plan.Passable) (hbase : hasNul base = false)
    (hreferences : ∀ reference ∈ references, reference.Passable) :
    ∃ after, (followAll catalog base plan references).value none = .ok after ∧ after.Passable := by
  induction references generalizing plan with
  | nil => exact ⟨plan, rfl, hplan⟩
  | cons reference references ih =>
      rw [List.forall_mem_cons] at hreferences
      obtain ⟨between, hbetween, hpassable⟩ := exists_follow catalog hplan hbase hreferences.1
      obtain ⟨after, hafter, hpassable'⟩ := ih hpassable hreferences.2
      refine ⟨after, ?_, hpassable'⟩
      exact (Attempt.value_bind_eq_ok (passive_follow _ _ _ _) fun _ =>
        passive_followAll _ _ _ _).2 ⟨between, hbetween, hafter⟩

/-- A walk ends in an error only if the references cannot be had of a document that was still to be
looked at, or that one of the moves has found. -/
theorem exists_of_walk_error {count : Nat} {plan : Plan E} {error : ValidationError}
    (hplan : plan.Passable) (h : (walk catalog count plan).value none = .error error) :
    ∃ document place, ((document, place) ∈ plan.pending ∨
        ∃ move ∈ moves catalog count plan, move.Finds catalog document place) ∧
      (Reference.ofDocument document).value none = .error error := by
  induction count generalizing plan with
  | zero => cases h
  | succ count ih =>
      unfold walk at h
      unfold moves
      cases hpending : plan.pending with
      | nil =>
          rw [hpending] at h
          cases h
      | cons item pending =>
          obtain ⟨document, base⟩ := item
          simp only [hpending] at h ⊢
          rw [Attempt.value_bind (Reference.passive_ofDocument _) fun _ =>
            (passive_followAll _ _ _ _).bind fun _ => passive_walk _ _ _] at h
          cases hreferences : (Reference.ofDocument document).value none with
          | error error' =>
              rw [hreferences] at h
              cases h
              exact ⟨document, base, Or.inl List.mem_cons_self, hreferences⟩
          | ok references =>
              have hpassable : ∀ reference ∈ references, reference.Passable :=
                Reference.gives_ofDocument document (Thread.under none) references hreferences
              obtain ⟨hbase, hrest⟩ := hplan.of_pending hpending
              obtain ⟨between, hbetween, hpassable'⟩ :=
                exists_followAll catalog hrest hbase hpassable
              have hwalk : (followAll catalog base { plan with pending } references >>=
                  walk catalog count).value none = .error error := by
                rw [hreferences] at h
                exact h
              rw [Attempt.value_bind (passive_followAll _ _ _ _) fun _ => passive_walk _ _ _,
                hbetween] at hwalk
              obtain ⟨failing, place, hfound, hfails⟩ := ih hpassable' hwalk
              refine ⟨failing, place, ?_, hfails⟩
              simp only [hbetween]
              rcases hfound with hmem | ⟨move, hmove, hfinds⟩
              · rcases (follows_of_followAll hbetween).pending_origin hmem with hold | hfinds
                · exact Or.inl (List.mem_cons_of_mem _ hold)
                · obtain ⟨move, hmove, hfinds⟩ := hfinds
                  exact Or.inr ⟨move, List.mem_append_left _ hmove, hfinds⟩
              · exact Or.inr ⟨move, List.mem_append_right _ hmove, hfinds⟩

/-- The walk from a root ends in an error only if the references of a document that it comes to
look at cannot be had. -/
theorem exists_crawled_of_walk_error {root : Loaded} {document : E.Document}
    {error : ValidationError}
    (hparse : (Attempt.parse root.octets root.systemId).value none = .ok (some document))
    (h : (walk catalog (E.library.length + 1) (start document root.systemId)).value none =
      .error error) :
    ∃ crawled place, Crawled catalog root crawled place ∧
      (Reference.ofDocument crawled).value none = .error error := by
  have hroot := Attempt.hasNul_of_value_parse hparse
  obtain ⟨crawled, place, hfound, hfails⟩ := exists_of_walk_error (passable_start document hroot) h
  refine ⟨crawled, place, ?_, hfails⟩
  rcases hfound with hmem | ⟨move, hmove, hfinds⟩
  · cases List.mem_singleton.1 hmem
    exact .root hparse
  · refine .found ?_ hfinds
    rw [history, hparse]
    exact hmove

end Plan

end Schema

end Conformance
