import Conformance.Proofs.Schema.Termination

/-!
# The graph of references

The documents that references lead to from a root make a graph that is there before any walk. When
references to one URL always have one answer, no entry of the table leads a walk away from it: then
a walk looks at the documents of the graph, whichever it comes to first, and at no others.

* `Reference.goal`, `Reachable`, `Meets` : the graph and the references in it;
* `Undisputed` : one answer for each URL;
* `Plan.Grounded` : what the moves of a walk keep (`Leads.grounded`), so that each leads where its
  reference does (`Move.next_eq_goal`);
* `Plan.exists_unreadable_of_redirects`, `Plan.planned_of_redirects` : what becomes of the planning,
  in terms of the graph alone.
-/

namespace Conformance

variable {E : Engine}

namespace Schema

/-- Where a reference leads as long as no other has made an entry for its URL. -/
def Reference.goal (catalog : E.LoadedCatalog) (reference : Reference) (base : String) :
    Option String :=
  (reference.answer catalog base).or
    (if Catalog.isRemote (reference.url E base) then none else some (reference.url E base))

/-- The documents, each with its place, that references lead to from a root. The place of the root
itself is met from the start, so that no other document is looked for there. -/
inductive Reachable (catalog : E.LoadedCatalog) (root : Loaded) : E.Document → String → Prop where
  | root {document : E.Document}
      (hparse : (Attempt.parse root.octets root.systemId).value none = .ok (some document)) :
      Reachable catalog root document root.systemId
  | follow {document found : E.Document} {base place : String} {references : List Reference}
      {reference : Reference} (h : Reachable catalog root document base)
      (hreferences : (Reference.ofDocument document).value none = .ok references)
      (hmem : reference ∈ references) (hgoal : reference.goal catalog base = some place)
      (hplace : place ≠ root.systemId) (hfound : E.documentAt none place = some found) :
      Reachable catalog root found place

/-- A reference in one of these documents, and the place of the document. -/
def Meets (catalog : E.LoadedCatalog) (root : Loaded) (reference : Reference) (base : String) :
    Prop :=
  ∃ document references, Reachable catalog root document base ∧
    (Reference.ofDocument document).value none = .ok references ∧ reference ∈ references

/-- For any two references to one URL the catalog has the same. -/
def Undisputed (catalog : E.LoadedCatalog) (root : Loaded) : Prop :=
  ∀ reference reference' base base', Meets catalog root reference base →
    Meets catalog root reference' base' → reference.url E base = reference'.url E base' →
      reference.answer catalog base = reference'.answer catalog base'

variable {catalog : E.LoadedCatalog} {root : Loaded}

theorem Reachable.parsed_or_found {document : E.Document} {base : String}
    (h : Reachable catalog root document base) :
    (Attempt.parse root.octets root.systemId).value none = .ok (some document) ∨
      ∃ place, E.documentAt none place = some document := by
  cases h with
  | root hparse => exact Or.inl hparse
  | follow _ _ _ _ _ hfound => exact Or.inr ⟨_, hfound⟩

/-! ## Walks in the graph -/

/-- A walk that has been nowhere but in the graph of a root. -/
structure Plan.Grounded (catalog : E.LoadedCatalog) (root : Loaded) (plan : Plan E) : Prop where
  start : root.systemId ∈ plan.visited
  pending : ∀ {document : E.Document} {place : String}, (document, place) ∈ plan.pending →
    Reachable catalog root document place
  table : ∀ {url target : String}, plan.table.target? url = some target →
    ∃ reference base, Meets catalog root reference base ∧ reference.url E base = url ∧
      reference.answer catalog base = some target

namespace Move

/-- As long as nothing is disputed, the walk goes where the reference leads. -/
theorem next_eq_goal {move : Move E} (hundisputed : Undisputed catalog root)
    (hplan : move.plan.Grounded catalog root)
    (hmeets : Meets catalog root move.reference move.base) :
    move.next catalog = move.reference.goal catalog move.base := by
  unfold Reference.goal
  cases hanswer : move.reference.answer catalog move.base with
  | none => exact next_of_none hanswer
  | some answer =>
      rw [next_of_some hanswer, directed_of_some hanswer, RedirectTable.target?_add, if_pos rfl]
      cases htarget : move.plan.table.target? move.url with
      | none => rfl
      | some target =>
          obtain ⟨origin, base, horigin, hurl, htarget⟩ := hplan.table htarget
          have hsame := hundisputed _ _ _ _ horigin hmeets hurl
          rw [htarget, hanswer] at hsame
          exact hsame

theorem Leads.grounded {move : Move E} {after : Plan E} (h : move.Leads catalog after)
    (hundisputed : Undisputed catalog root) (hplan : move.plan.Grounded catalog root)
    (hmeets : Meets catalog root move.reference move.base) : after.Grounded catalog root where
  start := h.mem_visited.2 (Or.inl hplan.start)
  pending hmem := by
    rcases h.pending_origin hmem with hold | hfinds
    · exact hplan.pending hold
    · obtain ⟨document, references, hreachable, hreferences, hreference⟩ := hmeets
      have hgoal := hfinds.next
      rw [next_eq_goal hundisputed hplan ⟨_, _, hreachable, hreferences, hreference⟩] at hgoal
      refine .follow hreachable hreferences hreference hgoal ?_ hfinds.document
      rintro rfl
      exact hfinds.new hplan.start
  table htarget := by
    rcases h.entry htarget with hold | ⟨hurl, hanswer, -⟩
    · exact hplan.table hold
    · exact ⟨_, _, hmeets, hurl, hanswer⟩

end Move

namespace Plan

theorem grounded_start {document : E.Document}
    (hparse : (Attempt.parse root.octets root.systemId).value none = .ok (some document)) :
    (start document root.systemId).Grounded catalog root where
  start := List.mem_singleton_self _
  pending hmem := by
    cases List.mem_singleton.1 hmem
    exact .root hparse
  table htarget := nomatch htarget

theorem Follows.grounded {base : String} {plan after : Plan E} {references : List Reference}
    {moves : List (Move E)} (h : Follows catalog base plan references moves after)
    (hundisputed : Undisputed catalog root) (hplan : plan.Grounded catalog root)
    (hmeets : ∀ reference ∈ references, Meets catalog root reference base) :
    after.Grounded catalog root ∧
      ∀ move ∈ moves, move.next catalog = move.reference.goal catalog move.base := by
  induction h with
  | nil plan => exact ⟨hplan, fun _ h => absurd h List.not_mem_nil⟩
  | cons hlocation hmove hrest ih =>
      rw [List.forall_mem_cons] at hmeets
      obtain ⟨hafter, hgoals⟩ := ih (hmove.grounded hundisputed hplan hmeets.1) hmeets.2
      rw [List.forall_mem_cons]
      exact ⟨hafter, Move.next_eq_goal hundisputed hplan hmeets.1, hgoals⟩

/-- A walk looks at documents of the graph, and each of its moves goes where the reference leads.
It is only such a document that can stop it. -/
theorem Proceeds.grounded {plan : Plan E} {looks : List (Look E)}
    {outcome : Except ValidationError (Plan E)} (h : Proceeds catalog plan looks outcome)
    (hundisputed : Undisputed catalog root) (hplan : plan.Grounded catalog root) :
    (∀ look ∈ looks, Reachable catalog root look.document look.base) ∧
      (∀ move ∈ looks.flatMap (·.moves),
        move.next catalog = move.reference.goal catalog move.base) ∧
      ∀ error, outcome = .error error → ∃ document base, Reachable catalog root document base ∧
        (Reference.ofDocument document).value none = .error error := by
  induction h with
  | done h => simp
  | @fails plan document base pending error hpending hreferences =>
      refine ⟨by simp, by simp, fun error' herror => ?_⟩
      cases herror
      exact ⟨document, base, hplan.pending (hpending ▸ List.mem_cons_self), hreferences⟩
  | @look plan between document base pending references moves looks outcome hpending hreferences
      hfollows hrest ih =>
      have hreachable : Reachable catalog root document base :=
        hplan.pending (hpending ▸ List.mem_cons_self)
      have htaken : Grounded catalog root { plan with pending } :=
        ⟨hplan.start, fun hmem => hplan.pending (hpending ▸ List.mem_cons_of_mem _ hmem),
          hplan.table⟩
      obtain ⟨hbetween, hgoals⟩ := hfollows.grounded hundisputed htaken fun reference hmem =>
        ⟨document, references, hreachable, hreferences, hmem⟩
      obtain ⟨hlooks, hgoals', herrors⟩ := ih hbetween
      refine ⟨?_, ?_, herrors⟩
      · rw [List.forall_mem_cons]
        exact ⟨hreachable, hlooks⟩
      · rw [List.flatMap_cons, List.forall_mem_append]
        exact ⟨hgoals, hgoals'⟩

/-- A walk that comes to its end has looked at the whole graph. -/
theorem Proceeds.exists_look {document : E.Document} {looks : List (Look E)} {after : Plan E}
    (h : Proceeds catalog (Plan.start document root.systemId) looks (.ok after))
    (hparse : (Attempt.parse root.octets root.systemId).value none = .ok (some document))
    (hundisputed : Undisputed catalog root) {reached : E.Document} {base : String}
    (hreachable : Reachable catalog root reached base) :
    ∃ look ∈ looks, look.document = reached ∧ look.base = base := by
  obtain ⟨-, hgoals, -⟩ := h.grounded hundisputed (grounded_start hparse)
  obtain ⟨last, hchain, -⟩ := h.exists_chain
  induction hreachable with
  | root hparse' =>
      rw [hparse] at hparse'
      cases hparse'
      exact h.lastFirst.exists_look_of_mem (List.mem_singleton_self _)
  | @follow document' found base place references reference _ hreferences hmem hgoal hplace hfound
      ih =>
      obtain ⟨look, hlook, rfl, rfl⟩ := ih
      obtain ⟨hreferences', hbase⟩ := h.references look hlook
      rw [hreferences] at hreferences'
      cases hreferences'
      obtain ⟨move, hmove, rfl⟩ := List.mem_map.1 hmem
      have hmove' : move ∈ looks.flatMap (·.moves) := List.mem_flatMap.2 ⟨look, hlook, hmove⟩
      have hnext : move.next catalog = some place := by
        rw [hgoals move hmove', hbase move hmove, hgoal]
      rw [h.lastFirst.exists_look_iff, hchain.exists_finds_iff]
      exact Or.inr ⟨hplace, hfound, move, hmove', hnext⟩

/-- What holds of some move of a walk to its end holds of some reference in the graph. -/
theorem Proceeds.exists_move_iff_meets {document : E.Document} {looks : List (Look E)}
    {after : Plan E}
    (h : Proceeds catalog (Plan.start document root.systemId) looks (.ok after))
    (hparse : (Attempt.parse root.octets root.systemId).value none = .ok (some document))
    (hundisputed : Undisputed catalog root) (P : Reference → String → Prop) :
    (∃ move ∈ looks.flatMap (·.moves), P move.reference move.base) ↔
      ∃ reference base, Meets catalog root reference base ∧ P reference base := by
  obtain ⟨hreachable, -, -⟩ := h.grounded hundisputed (grounded_start hparse)
  rw [h.exists_move_iff P]
  constructor
  · rintro ⟨look, hlook, references, hreferences, reference, hmem, hP⟩
    exact ⟨reference, look.base,
      ⟨look.document, references, hreachable look hlook, hreferences, hmem⟩, hP⟩
  · rintro ⟨reference, base, ⟨reached, references, hreached, hreferences, hmem⟩, hP⟩
    obtain ⟨look, hlook, rfl, rfl⟩ := h.exists_look hparse hundisputed hreached
    exact ⟨look, hlook, references, hreferences, reference, hmem, hP⟩

/-- The entries of a walk to its end are what the catalog has for the references in the graph. -/
theorem Proceeds.target?_eq_some_iff {document : E.Document} {looks : List (Look E)}
    {after : Plan E}
    (h : Proceeds catalog (Plan.start document root.systemId) looks (.ok after))
    (hparse : (Attempt.parse root.octets root.systemId).value none = .ok (some document))
    (hundisputed : Undisputed catalog root) (url target : String) :
    after.table.target? url = some target ↔
      ∃ reference base, Meets catalog root reference base ∧ reference.url E base = url ∧
        reference.answer catalog base = some target := by
  obtain ⟨last, hchain, hlast⟩ := h.exists_chain
  obtain rfl := hlast after rfl
  have hmeets : ∀ target, after.table.target? url = some target →
      ∃ reference base, Meets catalog root reference base ∧ reference.url E base = url ∧
        reference.answer catalog base = some target := by
    intro target htarget
    rw [hchain.table_eq] at htarget
    exact (h.exists_move_iff_meets hparse hundisputed fun reference base =>
      reference.url E base = url ∧ reference.answer catalog base = some target).1
        (exists_of_firstAnswer? htarget)
  refine ⟨hmeets target, ?_⟩
  rintro ⟨reference, base, hmet, hurl, hanswer⟩
  obtain ⟨move, hmove, hurl', hanswer'⟩ :=
    (h.exists_move_iff_meets hparse hundisputed fun reference base =>
      reference.url E base = url ∧ reference.answer catalog base = some target).2
        ⟨reference, base, hmet, hurl, hanswer⟩
  -- there is some entry for the URL, and it cannot be any other
  have hentry : (after.table.target? url).isSome := by
    rw [hchain.table_eq, isSome_firstAnswer?_iff]
    exact ⟨move, hmove, hurl', Option.isSome_iff_exists.2 ⟨target, hanswer'⟩⟩
  obtain ⟨entry, hentry⟩ := Option.isSome_iff_exists.1 hentry
  obtain ⟨origin, base', horigin, hsame, hanswered⟩ := hmeets entry hentry
  rw [hentry, ← hanswer, ← hanswered]
  exact hundisputed _ _ _ _ horigin hmet (hsame.trans hurl.symm)

/-! ## What is planned -/

/-- A table and the places that were read for it, in terms of the graph from a root. -/
structure Planned (catalog : E.LoadedCatalog) (root : Loaded) (table : RedirectTable) : Prop where
  readable : ∀ document base, Reachable catalog root document base →
    ∃ references, (Reference.ofDocument document).value none = .ok references
  entries : ∀ url target, table.target? url = some target ↔
    ∃ reference base, Meets catalog root reference base ∧ reference.url E base = url ∧
      reference.answer catalog base = some target
  reads : ∀ place, place ∈ (redirects catalog root).reads none ↔
    place ≠ root.systemId ∧ ∃ reference base, Meets catalog root reference base ∧
      reference.goal catalog base = some place

/-- From a root that does not parse no document is reached. -/
theorem exists_parsed_of_reachable {document : E.Document} {base : String}
    (h : Reachable catalog root document base) : ∃ parsed : E.Document,
      (Attempt.parse root.octets root.systemId).value none = .ok (some parsed) := by
  induction h with
  | @root document hparse => exact ⟨document, hparse⟩
  | follow _ _ _ _ _ _ ih => exact ih

theorem planned_of_unparsed
    (hparse : (Attempt.parse root.octets root.systemId).value (E := E) none = .ok none) :
    Planned catalog root [] := by
  have hparsed : ∀ document : E.Document,
      (Attempt.parse root.octets root.systemId).value none ≠ .ok (some document) := by
    intro document hdocument
    rw [hparse] at hdocument
    cases hdocument
  have hreachable : ∀ document base, ¬ Reachable catalog root document base := by
    intro document base hreached
    obtain ⟨parsed, hparsed'⟩ := exists_parsed_of_reachable hreached
    exact hparsed parsed hparsed'
  have hmeets : ∀ reference base, ¬ Meets catalog root reference base :=
    fun reference base ⟨document, _, hreached, _⟩ => hreachable document base hreached
  constructor
  · exact fun document base hreached => absurd hreached (hreachable document base)
  · simp [hmeets, RedirectTable.target?]
  · simp [hmeets, reads_redirects, history_of_unparsed hparsed]

/-- A walk to its end plans for the graph that it has walked through. -/
theorem Proceeds.planned {document : E.Document} {looks : List (Look E)} {after : Plan E}
    (h : Proceeds catalog (Plan.start document root.systemId) looks (.ok after))
    (hmoves : looks.flatMap (·.moves) = history catalog root)
    (hparse : (Attempt.parse root.octets root.systemId).value none = .ok (some document))
    (hundisputed : Undisputed catalog root) : Planned catalog root after.table where
  readable reached base hreached := by
    obtain ⟨look, hlook, rfl, rfl⟩ := h.exists_look hparse hundisputed hreached
    exact ⟨_, (h.references look hlook).1⟩
  entries := h.target?_eq_some_iff hparse hundisputed
  reads place := by
    obtain ⟨-, hgoals, -⟩ := h.grounded hundisputed (grounded_start hparse)
    obtain ⟨last, hchain, -⟩ := h.exists_chain
    rw [reads_redirects, ← hmoves, hchain.mem_reads_iff,
      ← h.exists_move_iff_meets hparse hundisputed fun reference base =>
        reference.goal catalog base = some place]
    refine and_congr_right fun _ => exists_congr fun move => and_congr_right fun hmove => ?_
    rw [hgoals move hmove]

section

variable {thread : Thread E} (hundisputed : Undisputed catalog root)
  (hthread : thread.resolution = none)
include hundisputed hthread

/-- If nothing is disputed, the planning fails only if the root or the references of a document in
its graph cannot be had. -/
theorem exists_unreadable_of_redirects {error : ValidationError}
    (h : ((redirects catalog root).outcome.run thread).1 = .error error) :
    (Attempt.parse root.octets root.systemId).value (E := E) none = .error error ∨
      ∃ document base, Reachable catalog root document base ∧
        (Reference.ofDocument document).value none = .error error := by
  cases hparse : (Attempt.parse root.octets root.systemId).value (E := E) none with
  | error cause =>
      rw [fst_run_redirects hthread, hparse] at h
      cases h
      exact Or.inl rfl
  | ok parsed =>
      cases parsed with
      | none =>
          rw [fst_run_redirects hthread, hparse] at h
          cases h
      | some document =>
          obtain ⟨looks, outcome, -, hproceeds, houtcome⟩ := exists_proceeds catalog hthread hparse
          rw [h] at houtcome
          cases outcome with
          | ok after => cases houtcome
          | error cause =>
              cases houtcome
              obtain ⟨-, -, herrors⟩ := hproceeds.grounded hundisputed (grounded_start hparse)
              exact Or.inr (herrors _ rfl)

/-- If nothing is disputed, what is planned does not depend on the way that the walk takes. -/
theorem planned_of_redirects {table : RedirectTable}
    (h : ((redirects catalog root).outcome.run thread).1 = .ok table) :
    Planned catalog root table := by
  rcases walks_of_redirects hthread h with ⟨hparse, rfl⟩ | ⟨document, _, hparse, -, -⟩
  · exact planned_of_unparsed hparse
  · obtain ⟨looks, outcome, hmoves, hproceeds, houtcome⟩ := exists_proceeds catalog hthread hparse
    rw [h] at houtcome
    cases outcome with
    | error error => cases houtcome
    | ok after =>
        cases houtcome
        exact hproceeds.planned hmoves hparse hundisputed

end

end Plan

end Schema

end Conformance
