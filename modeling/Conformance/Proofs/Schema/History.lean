import Conformance.Proofs.Schema.Walk

/-!
# The history of a walk

The history of a walk is the list of its moves, each with the walk as it was before. What a plan
says of a reference can so be said of every reference that the walk meets.

* `Plan.history` : the moves of the walk from a root;
* `Plan.Follows`, `Plan.Walks` : walks without an error and their moves, as relations;
* `Plan.Reaches` : entries come from moves, and what moves bring about is there in the end;
* `Plan.Looked` : all references of a document were followed, which in the end holds of every
  document that was met (`Walks.looked`);
* `Plan.remaining` : bounds the documents that are still to be looked at, so the walk is given
  enough steps to come to an end (`walks_of_walk`).
-/

namespace Conformance

variable {E : Engine}

namespace Schema

namespace Plan

/-! ## Moves -/

/-- The moves that follow references of the document at a base, up to the first error. -/
def movesAll (catalog : E.LoadedCatalog) (base : String) : Plan E → List Reference → List (Move E)
  | _, [] => []
  | plan, reference :: references =>
    ⟨plan, base, reference⟩ ::
      match (follow catalog base plan reference).value none with
      | .ok plan => movesAll catalog base plan references
      | .error _ => []

/-- The moves of a walk that looks at up to so many documents, up to the first error. -/
def moves (catalog : E.LoadedCatalog) : Nat → Plan E → List (Move E)
  | 0, _ => []
  | count + 1, plan =>
    match plan.pending with
    | [] => []
    | (document, base) :: pending =>
      match (Reference.ofDocument document).value none with
      | .ok references =>
        movesAll catalog base { plan with pending } references ++
          match (followAll catalog base { plan with pending } references).value none with
          | .ok plan => moves catalog count plan
          | .error _ => []
      | .error _ => []

/-- The moves of the walk that plans the redirects of a root. -/
def history (catalog : E.LoadedCatalog) (root : Loaded) : List (Move E) :=
  match (Attempt.parse root.octets root.systemId).value none with
  | .ok (some document) => moves catalog (E.library.length + 1) (start document root.systemId)
  | _ => []

/-- References are followed without an error, by moves. -/
inductive Follows (catalog : E.LoadedCatalog) (base : String) :
    Plan E → List Reference → List (Move E) → Plan E → Prop where
  | nil (plan : Plan E) : Follows catalog base plan [] [] plan
  | cons {plan between after : Plan E} {reference : Reference} {references : List Reference}
      {moves : List (Move E)} (hlocation : hasNul reference.location = false)
      (hmove : Move.Leads catalog ⟨plan, base, reference⟩ between)
      (hrest : Follows catalog base between references moves after) :
      Follows catalog base plan (reference :: references) (⟨plan, base, reference⟩ :: moves) after

/-- A walk goes on until no document is left, by moves. -/
inductive Walks (catalog : E.LoadedCatalog) : Plan E → List (Move E) → Plan E → Prop where
  | done {plan : Plan E} (h : plan.pending = []) : Walks catalog plan [] plan
  | look {plan between after : Plan E} {document : E.Document} {base : String}
      {pending : List (E.Document × String)} {references : List Reference}
      {moves moves' : List (Move E)} (hpending : plan.pending = (document, base) :: pending)
      (hreferences : (Reference.ofDocument document).value none = .ok references)
      (hfollows : Follows catalog base { plan with pending } references moves between)
      (hrest : Walks catalog between moves' after) : Walks catalog plan (moves ++ moves') after

/-! ## What moves lead to -/

/-- Moves lead from a walk to another. What they bring about is there in the end, and an entry
that was not there before is the answer to one of them, which went on to the place entered. -/
structure Reaches (catalog : E.LoadedCatalog) (plan : Plan E) (moves : List (Move E))
    (after : Plan E) : Prop where
  grows : plan.Grows after
  settled : ∀ move ∈ moves, move.Settled catalog after
  entry : ∀ {url target : String}, after.table.target? url = some target →
    plan.table.target? url = some target ∨
      ∃ move ∈ moves, move.url = url ∧ move.answer catalog = some target ∧
        move.next catalog = some target

namespace Reaches

variable {catalog : E.LoadedCatalog}

theorem nil (plan : Plan E) : Reaches catalog plan [] plan :=
  ⟨.refl plan, fun _ h => absurd h List.not_mem_nil, Or.inl⟩

theorem append {plan between after : Plan E} {moves moves' : List (Move E)}
    (h : Reaches catalog plan moves between) (h' : Reaches catalog between moves' after) :
    Reaches catalog plan (moves ++ moves') after where
  grows := h.grows.trans h'.grows
  settled move hmove := by
    rcases List.mem_append.1 hmove with hmove | hmove
    · exact (h.settled move hmove).mono h'.grows
    · exact h'.settled move hmove
  entry htarget := by
    rcases h'.entry htarget with htarget | ⟨move, hmove, hurl⟩
    · rcases h.entry htarget with htarget | ⟨move, hmove, hurl⟩
      · exact Or.inl htarget
      · exact Or.inr ⟨move, List.mem_append_left _ hmove, hurl⟩
    · exact Or.inr ⟨move, List.mem_append_right _ hmove, hurl⟩

theorem of_leads {move : Move E} {after : Plan E} (h : move.Leads catalog after)
    (hlocation : hasNul move.reference.location = false) :
    Reaches catalog move.plan [move] after where
  grows := h.grows
  settled move' hmove := by
    rw [List.mem_singleton] at hmove
    exact hmove ▸ h.settled hlocation
  entry htarget := by
    rcases h.entry htarget with htarget | hentry
    · exact Or.inl htarget
    · exact Or.inr ⟨move, List.mem_singleton_self move, hentry⟩

end Reaches

/-- All references of the document at a base were followed. -/
def Looked (moves : List (Move E)) (document : E.Document) (base : String) : Prop :=
  ∃ references, (Reference.ofDocument document).value none = .ok references ∧
    ∀ reference ∈ references, ∃ move ∈ moves, move.base = base ∧ move.reference = reference

theorem Looked.mono {moves moves' : List (Move E)} {document : E.Document} {base : String}
    (h : Looked moves document base) (hsub : ∀ move ∈ moves, move ∈ moves') :
    Looked moves' document base := by
  obtain ⟨references, hreferences, hmoves⟩ := h
  refine ⟨references, hreferences, fun reference hreference => ?_⟩
  obtain ⟨move, hmove, heq⟩ := hmoves reference hreference
  exact ⟨move, hsub move hmove, heq⟩

namespace Follows

variable {catalog : E.LoadedCatalog} {base : String} {plan after : Plan E}
  {references : List Reference} {moves : List (Move E)}

theorem reaches (h : Follows catalog base plan references moves after) :
    Reaches catalog plan moves after := by
  induction h with
  | nil plan => exact .nil plan
  | cons hlocation hmove hrest ih => exact (Reaches.of_leads hmove hlocation).append ih

theorem exists_move (h : Follows catalog base plan references moves after) :
    ∀ reference ∈ references, ∃ move ∈ moves, move.base = base ∧ move.reference = reference := by
  induction h with
  | nil plan => exact fun _ h => absurd h List.not_mem_nil
  | @cons plan between after reference references moves hlocation hmove hrest ih =>
      intro reference' hreference
      rcases List.mem_cons.1 hreference with rfl | hreference
      · exact ⟨_, List.mem_cons_self, rfl, rfl⟩
      · obtain ⟨move, hmem, heq⟩ := ih reference' hreference
        exact ⟨move, List.mem_cons_of_mem _ hmem, heq⟩

theorem pending (h : Follows catalog base plan references moves after)
    {item : E.Document × String} (hitem : item ∈ plan.pending) : item ∈ after.pending := by
  induction h with
  | nil plan => exact hitem
  | cons hlocation hmove hrest ih => exact ih (hmove.pending hitem)

/-- A place that is met on the way can be passed on, and its document is looked at later. -/
theorem found (h : Follows catalog base plan references moves after) {place : String}
    (hmem : place ∈ after.visited) (hnew : place ∉ plan.visited) :
    hasNul place = false ∧
      ∀ document, E.documentAt none place = some document → (document, place) ∈ after.pending := by
  induction h with
  | nil plan => exact absurd hmem hnew
  | @cons plan between after reference references moves hlocation hmove hrest ih =>
      by_cases hbetween : place ∈ between.visited
      · obtain ⟨hplace, hdocument⟩ := hmove.found hbetween hnew
        exact ⟨hplace, fun document h => hrest.pending (hdocument document h)⟩
      · exact ih hmem hbetween

end Follows

namespace Walks

variable {catalog : E.LoadedCatalog} {plan after : Plan E} {moves : List (Move E)}

theorem reaches (h : Walks catalog plan moves after) : Reaches catalog plan moves after := by
  induction h with
  | done h => exact .nil _
  | look hpending hreferences hfollows hrest ih =>
      have hreaches := hfollows.reaches
      exact Reaches.append ⟨⟨hreaches.grows.table, hreaches.grows.visited⟩, hreaches.settled,
        hreaches.entry⟩ ih

/-- Every document that was pending is looked at. -/
theorem looked_of_pending (h : Walks catalog plan moves after) {document : E.Document}
    {base : String} (hmem : (document, base) ∈ plan.pending) : Looked moves document base := by
  induction h with
  | done h =>
      rw [h] at hmem
      cases hmem
  | look hpending hreferences hfollows hrest ih =>
      rw [hpending] at hmem
      rcases List.mem_cons.1 hmem with heq | hmem
      · cases heq
        have hlooked : Looked _ document base := ⟨_, hreferences, hfollows.exists_move⟩
        exact hlooked.mono fun move => List.mem_append_left _
      · exact (ih (hfollows.pending hmem)).mono fun move => List.mem_append_right _

/-- A place that is met on the way can be passed on, and the document there is looked at. -/
theorem looked (h : Walks catalog plan moves after) {place : String}
    (hmem : place ∈ after.visited) (hnew : place ∉ plan.visited) :
    hasNul place = false ∧
      ∀ document, E.documentAt none place = some document → Looked moves document place := by
  induction h with
  | done h => exact absurd hmem hnew
  | @look plan between after document base pending references moves moves' hpending hreferences
      hfollows hrest ih =>
      by_cases hbetween : place ∈ between.visited
      · obtain ⟨hplace, hfound⟩ := hfollows.found hbetween hnew
        refine ⟨hplace, fun document h => ?_⟩
        exact (hrest.looked_of_pending (hfound document h)).mono fun move => List.mem_append_right _
      · obtain ⟨hplace, hlooked⟩ := ih hmem hbetween
        exact ⟨hplace, fun document h => (hlooked document h).mono fun move =>
          List.mem_append_right _⟩

/-- In the end of a walk from a place that can be passed on, all places met can be. -/
theorem hasNul_visited {root : E.Document} {base : String} (hbase : hasNul base = false)
    (h : Walks catalog (start root base) moves after) {place : String}
    (hmem : place ∈ after.visited) : hasNul place = false := by
  by_cases hstart : place ∈ (start root base).visited
  · exact List.mem_singleton.1 hstart ▸ hbase
  · exact (h.looked hmem hstart).1

/-- An entry leads to a place that was met. -/
theorem mem_visited_of_target {root : E.Document} {base : String}
    (h : Walks catalog (start root base) moves after) {url target : String}
    (htarget : after.table.target? url = some target) : target ∈ after.visited := by
  rcases h.reaches.entry htarget with hstart | ⟨move, hmove, -, -, hnext⟩
  · cases hstart
  · exact (h.reaches.settled move hmove).visited hnext

theorem hasNul_place {root : E.Document} {base : String} (hbase : hasNul base = false)
    (h : Walks catalog (start root base) moves after) {url : String} (hurl : hasNul url = false) :
    hasNul (after.table.place url) = false := by
  cases htarget : after.table.target? url with
  | none => rwa [RedirectTable.place_of_none htarget]
  | some target =>
      rw [RedirectTable.place_of_some htarget]
      exact h.hasNul_visited hbase (h.mem_visited_of_target htarget)

end Walks

/-! ## The number of steps -/

/-- The places of entities that a walk has not met. -/
def unmet (plan : Plan E) : List String :=
  E.library.filter fun place => !plan.visited.contains place

/-- A bound of the documents that are still to be looked at. -/
def remaining (plan : Plan E) : Nat :=
  plan.pending.length + plan.unmet.length

theorem unmet_arrive (plan : Plan E) (place : String) :
    (plan.arrive place).unmet = plan.unmet.filter (· ≠ place) := by
  rw [unmet, unmet, List.filter_filter, arrive]
  refine List.filter_congr fun place' _ => ?_
  simp [List.contains_eq_mem, Bool.and_comm]

/-- A document that is found takes its place from the places not met. -/
theorem remaining_arrive {plan : Plan E} {place : String} (hnew : place ∉ plan.visited)
    (hplace : hasNul place = false) : (plan.arrive place).remaining ≤ plan.remaining := by
  have hle : (plan.arrive place).unmet.length ≤ plan.unmet.length := by
    rw [unmet_arrive]
    exact List.length_filter_le _ _
  cases hdocument : E.documentAt none place with
  | none =>
      simp only [remaining, arrive, hdocument, Option.map_none, Option.toList_none,
        List.nil_append] at hle ⊢
      omega
  | some document =>
      have hmem : place ∈ plan.unmet :=
        List.mem_filter.2 ⟨E.mem_library_of_documentAt hplace hdocument, by simpa using hnew⟩
      have hlt : (plan.arrive place).unmet.length < plan.unmet.length := by
        rw [unmet_arrive]
        exact List.length_filter_lt_length_iff_exists.2 ⟨place, hmem, by simp⟩
      simp only [remaining, arrive, hdocument, Option.map_some, Option.toList_some,
        List.singleton_append, List.length_cons] at hlt ⊢
      omega

end Plan

theorem Move.Leads.remaining_le {catalog : E.LoadedCatalog} {move : Move E} {after : Plan E}
    (h : move.Leads catalog after) : after.remaining ≤ move.plan.remaining := by
  have hdirected : (move.directed catalog).remaining = move.plan.remaining := by
    simp only [Plan.remaining, Plan.unmet, directed_visited, directed_pending]
  cases h with
  | nowhere hnext => exact Nat.le_refl _
  | again hnext hmet => exact Nat.le_of_eq hdirected
  | reads hnext hnew hplace =>
      rw [← hdirected]
      refine Plan.remaining_arrive ?_ hplace
      rwa [directed_visited]

namespace Plan

theorem Follows.remaining_le {catalog : E.LoadedCatalog} {base : String} {plan after : Plan E}
    {references : List Reference} {moves : List (Move E)}
    (h : Follows catalog base plan references moves after) : after.remaining ≤ plan.remaining := by
  induction h with
  | nil plan => exact Nat.le_refl _
  | cons hlocation hmove hrest ih => exact Nat.le_trans ih hmove.remaining_le

/-! ## Walks without an error -/

section

variable {catalog : E.LoadedCatalog}

theorem follows_of_followAll {base : String} {plan after : Plan E} {references : List Reference}
    (h : (followAll catalog base plan references).value none = .ok after) :
    Follows catalog base plan references (movesAll catalog base plan references) after := by
  induction references generalizing plan with
  | nil =>
      cases h
      exact .nil _
  | cons reference references ih =>
      obtain ⟨between, hfollow, hrest⟩ := (Attempt.value_bind_eq_ok (passive_follow _ _ _ _)
        fun _ => passive_followAll _ _ _ _).1 h
      obtain ⟨hlocation, hleads⟩ := leads_of_follow hfollow
      rw [movesAll, hfollow]
      exact .cons hlocation hleads (ih hrest)

/-- A walk that is given enough steps looks at every document. -/
theorem walks_of_walk {count : Nat} {plan after : Plan E}
    (h : (walk catalog count plan).value none = .ok after) (hcount : plan.remaining ≤ count) :
    Walks catalog plan (moves catalog count plan) after := by
  induction count generalizing plan with
  | zero =>
      cases h
      rw [remaining] at hcount
      exact .done (List.eq_nil_of_length_eq_zero (by omega))
  | succ count ih =>
      unfold walk at h
      unfold moves
      cases hpending : plan.pending with
      | nil =>
          simp only [hpending] at h ⊢
          cases h
          exact .done hpending
      | cons item pending =>
          obtain ⟨document, base⟩ := item
          simp only [hpending] at h ⊢
          obtain ⟨references, hreferences, h⟩ := (Attempt.value_bind_eq_ok
            (Reference.passive_ofDocument _) fun _ => (passive_followAll _ _ _ _).bind fun _ =>
              passive_walk _ _ _).1 h
          obtain ⟨between, hfollowAll, hrest⟩ := (Attempt.value_bind_eq_ok
            (passive_followAll _ _ _ _) fun _ => passive_walk _ _ _).1 h
          have hfollows := follows_of_followAll hfollowAll
          have hbetween : between.remaining ≤ count := by
            have hle := hfollows.remaining_le
            simp only [remaining, hpending, List.length_cons, unmet] at hle hcount ⊢
            omega
          simp only [hreferences, hfollowAll]
          exact .look hpending hreferences hfollows (ih hrest hbetween)

theorem remaining_start (root : E.Document) (place : String) :
    (start root place).remaining ≤ E.library.length + 1 := by
  have hle := List.length_filter_le (fun place' => !([place].contains place')) E.library
  simp only [remaining, start, unmet, List.length_singleton] at hle ⊢
  omega

/-- The walk from a root that was parsed, if it could be. -/
def walkFrom (catalog : E.LoadedCatalog) (root : Loaded) :
    Option E.Document → Attempt E RedirectTable
  | none => pure []
  | some document => do
    let plan ← walk catalog (E.library.length + 1) (start document root.systemId)
    return plan.table

theorem passive_walkFrom (catalog : E.LoadedCatalog) (root : Loaded)
    (document : Option E.Document) : (walkFrom catalog root document).Passive := by
  cases document with
  | none => exact Attempt.passive_pure []
  | some document => exact (passive_walk _ _ _).bind fun _ => Attempt.passive_pure _

/-- Planning parses the root and walks from there, in a bracket. -/
theorem redirects_eq (catalog : E.LoadedCatalog) (root : Loaded) :
    redirects catalog root =
      Attempt.capturing root.systemId
        (fun _ => Attempt.parse root.octets root.systemId >>= walkFrom catalog root) >>=
          fun captured => Attempt.ofExcept captured.1 := rfl

/-- The collector that is installed meanwhile does not matter to the outcome. -/
theorem run_redirects_fst (catalog : E.LoadedCatalog) (root : Loaded) (thread : Thread E) :
    ((redirects catalog root).outcome.run thread).1 =
      (Attempt.parse root.octets root.systemId >>= walkFrom catalog root).value
        thread.resolution := by
  have hpassive : (Attempt.parse root.octets root.systemId >>= walkFrom catalog root).Passive :=
    (Attempt.passive_parse _ _).bind (passive_walkFrom catalog root)
  rw [redirects_eq, Attempt.run_bind, Attempt.run_capturing rfl]
  exact hpassive.run_fst _

/-- A table that was planned without a resolution is that of a walk from the root to its end, or it
is empty because the root cannot be parsed. -/
theorem walks_of_redirects {root : Loaded} {thread : Thread E} {table : RedirectTable}
    (hthread : thread.resolution = none)
    (h : ((redirects catalog root).outcome.run thread).1 = .ok table) :
    (Attempt.parse root.octets root.systemId).value (E := E) none = .ok none ∧ table = [] ∨
      ∃ document after, (Attempt.parse root.octets root.systemId).value none = .ok (some document) ∧
        Walks catalog (start document root.systemId) (history catalog root) after ∧
        table = after.table := by
  rw [run_redirects_fst, hthread] at h
  obtain ⟨document, hparse, hwalk⟩ := (Attempt.value_bind_eq_ok (Attempt.passive_parse _ _)
    (passive_walkFrom catalog root)).1 h
  cases document with
  | none =>
      cases hwalk
      exact Or.inl ⟨hparse, rfl⟩
  | some document =>
      obtain ⟨after, hafter, htable⟩ := (Attempt.value_bind_eq_ok (passive_walk _ _ _)
        fun _ => Attempt.passive_pure _).1 hwalk
      cases htable
      refine Or.inr ⟨document, after, hparse, ?_, rfl⟩
      rw [history, hparse]
      exact walks_of_walk hafter (remaining_start _ _)

end

end Plan

end Schema

end Conformance
