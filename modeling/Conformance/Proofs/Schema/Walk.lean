import Conformance.Proofs.Engine.Places
import Conformance.Proofs.Schema.Extraction
import Conformance.Schema.Plan

/-!
# One move of a walk

The walk that plans the redirects of a schema follows one reference after another. Each of these
moves starts from the walk as it is, and this module says once what it can do.

* `Reference.url`, `Reference.answer` : the URL that a reference stands for at a base, and what the
  catalog has for it;
* `Move.next` : the place that the walk goes on to;
* `Move.Leads` : the three things that a move can do, `Plan.leads_of_follow` : it does no other;
* `Plan.Grows`, `Move.Settled` : what a move leaves as it is, and what it brings about for good.
-/

namespace Conformance

variable {E : Engine}

namespace Schema

/-! ## References -/

namespace Reference

/-- The URL that a reference in the document at a base stands for. -/
def url (E : Engine) (reference : Reference) (base : String) : String :=
  ((E.buildUri reference.location base).map RawText.lossy).getD reference.location

/-- What a catalog has for a reference in the document at a base. -/
def answer (catalog : E.LoadedCatalog) (reference : Reference) (base : String) : Option String :=
  Catalog.search (E.ask catalog) (reference.request base).lookups

/-- The URL of a reference whose location can be passed on can be passed on. -/
theorem hasNul_url {reference : Reference} (base : String)
    (h : hasNul reference.location = false) : hasNul (reference.url E base) = false := by
  rw [url]
  cases E.buildUri reference.location base with
  | none => exact h
  | some built => exact RawText.hasNul_lossy built

theorem passive_ofDocument (document : E.Document) : (ofDocument document).Passive :=
  (inquires_ofDocument document).passive

end Reference

/-! ## Moves -/

/-- A reference of the document at a base, and the walk when it comes to the reference. -/
structure Move (E : Engine) where
  plan : Plan E
  base : String
  reference : Reference

namespace Move

/-- The URL that the reference stands for. -/
def url (move : Move E) : String :=
  move.reference.url E move.base

/-- What the catalog has for the reference. -/
def answer (catalog : E.LoadedCatalog) (move : Move E) : Option String :=
  move.reference.answer catalog move.base

/-- The walk with what the catalog has entered, but gone nowhere yet. -/
def directed (catalog : E.LoadedCatalog) (move : Move E) : Plan E :=
  (move.plan.direct move.url (move.answer catalog)).1

/-- The place that the walk goes on to. -/
def next (catalog : E.LoadedCatalog) (move : Move E) : Option String :=
  (move.plan.direct move.url (move.answer catalog)).2

end Move

namespace Plan

/-- The walk after a place was read that it had not met. -/
def arrive (plan : Plan E) (place : String) : Plan E :=
  { plan with
    visited := plan.visited ++ [place]
    pending := ((E.documentAt none place).map (·, place)).toList ++ plan.pending }

/-! ## What one step can do -/

theorem arrive_table (plan : Plan E) (place : String) :
    (plan.arrive place).table = plan.table := rfl

theorem passive_visit (plan : Plan E) (place : String) : (plan.visit place).Passive := by
  unfold visit
  split
  · exact Attempt.passive_pure plan
  · exact (Attempt.passive_read place).bind fun _ => Attempt.passive_pure _

/-- Going on to a place, if there is one. -/
theorem passive_go (directed : Plan E × Option String) :
    Attempt.Passive (E := E) (match directed with
      | (plan, some place) => plan.visit place
      | (plan, none) => pure plan) := by
  split
  · exact passive_visit _ _
  · exact Attempt.passive_pure _

theorem passive_follow (catalog : E.LoadedCatalog) (base : String) (plan : Plan E)
    (reference : Reference) : (follow catalog base plan reference).Passive :=
  (Attempt.passive_buildUri _ _).bind fun _ =>
    (Attempt.passive_lift (Session.passive_search _ _)).bind fun _ => passive_go _

theorem passive_followAll (catalog : E.LoadedCatalog) (base : String) (plan : Plan E)
    (references : List Reference) : (followAll catalog base plan references).Passive := by
  induction references generalizing plan with
  | nil => exact Attempt.passive_pure plan
  | cons reference references ih => exact (passive_follow _ _ _ _).bind fun _ => ih _

theorem passive_walk (catalog : E.LoadedCatalog) (count : Nat) (plan : Plan E) :
    (walk catalog count plan).Passive := by
  induction count generalizing plan with
  | zero => exact Attempt.passive_pure plan
  | succ count ih =>
      unfold walk
      split
      · exact Attempt.passive_pure plan
      · exact (Reference.passive_ofDocument _).bind fun _ =>
          (passive_followAll _ _ _ _).bind fun _ => ih _

theorem value_visit (plan : Plan E) (place : String) :
    (plan.visit place).value none =
      if plan.visited.contains place then .ok plan
      else if hasNul place then .error (EngineError.nulInText place).toValidation
      else .ok (plan.arrive place) := by
  unfold visit
  split
  · rfl
  · rw [Attempt.value_bind (Attempt.passive_read place) fun _ => Attempt.passive_pure _,
      Attempt.value_read]
    cases hasNul place <;> rfl

end Plan

namespace Move

theorem direct_eq (catalog : E.LoadedCatalog) (move : Move E) :
    move.plan.direct move.url (move.answer catalog) = (move.directed catalog, move.next catalog) := by
  rw [directed, next, Prod.eta]

section

variable {catalog : E.LoadedCatalog} {move : Move E}

theorem directed_of_some {answer : String} (h : move.answer catalog = some answer) :
    move.directed catalog = { move.plan with table := move.plan.table.add move.url answer } := by
  rw [directed, h]
  rfl

theorem directed_of_none (h : move.answer catalog = none) :
    move.directed catalog = move.plan := by
  rw [directed, h]
  rfl

/-- A reference that the catalog resolves leads to the entry of its URL. -/
theorem next_of_some {answer : String} (h : move.answer catalog = some answer) :
    move.next catalog = (move.directed catalog).table.target? move.url := by
  rw [directed_of_some h, next, h, Plan.direct, RedirectTable.target?_add, if_pos rfl,
    Option.getD_some]

theorem next_of_none (h : move.answer catalog = none) :
    move.next catalog = if Catalog.isRemote move.url then none else some move.url := by
  rw [next, h, Plan.direct]

theorem directed_visited : (move.directed catalog).visited = move.plan.visited := by
  cases h : move.answer catalog with
  | none => rw [directed_of_none h]
  | some answer => rw [directed_of_some h]

theorem directed_pending : (move.directed catalog).pending = move.plan.pending := by
  cases h : move.answer catalog with
  | none => rw [directed_of_none h]
  | some answer => rw [directed_of_some h]

theorem directed_of_next_eq_none (h : move.next catalog = none) :
    move.directed catalog = move.plan := by
  cases hanswer : move.answer catalog with
  | none => exact directed_of_none hanswer
  | some answer =>
      rw [next, hanswer, Plan.direct] at h
      cases h

end

end Move

/-- What a move can do to a walk. One that leads nowhere leaves it as it is, one that leads to a
place met before only enters what the catalog has, and any other reads at its place. -/
inductive Move.Leads (catalog : E.LoadedCatalog) (move : Move E) : Plan E → Prop where
  | nowhere (hnext : move.next catalog = none) : Leads catalog move move.plan
  | again {place : String} (hnext : move.next catalog = some place)
      (hmet : place ∈ move.plan.visited) : Leads catalog move (move.directed catalog)
  | reads {place : String} (hnext : move.next catalog = some place)
      (hnew : place ∉ move.plan.visited) (hplace : hasNul place = false) :
      Leads catalog move ((move.directed catalog).arrive place)

theorem Move.leads_of_go {catalog : E.LoadedCatalog} {base : String} {plan after : Plan E}
    {reference : Reference}
    (h : Attempt.value (match plan.direct (reference.url E base) (reference.answer catalog base) with
      | (plan, some place) => plan.visit place
      | (plan, none) => pure plan) none = .ok after) :
    Leads catalog ⟨plan, base, reference⟩ after := by
  have hdirect := direct_eq catalog ⟨plan, base, reference⟩
  rw [url, answer] at hdirect
  rw [hdirect] at h
  generalize (⟨plan, base, reference⟩ : Move E) = move at h ⊢
  cases hnext : move.next catalog with
  | none =>
      rw [hnext, directed_of_next_eq_none hnext] at h
      obtain rfl := Except.ok.inj h
      exact .nowhere hnext
  | some place =>
      rw [hnext, Plan.value_visit, directed_visited] at h
      split at h
      · next hmet =>
          obtain rfl := Except.ok.inj h
          exact .again hnext (List.contains_iff_mem.1 hmet)
      · next hnew =>
          split at h
          · exact absurd h (by simp)
          · next hplace =>
              obtain rfl := Except.ok.inj h
              exact .reads hnext (fun hmem => hnew (List.contains_iff_mem.2 hmem))
                (Bool.eq_false_iff.2 hplace)

namespace Plan

/-- A walk that follows a reference without an error makes a move, and from a location that can
be passed on. -/
theorem leads_of_follow {catalog : E.LoadedCatalog} {base : String} {plan after : Plan E}
    {reference : Reference} (h : (follow catalog base plan reference).value none = .ok after) :
    hasNul reference.location = false ∧ Move.Leads catalog ⟨plan, base, reference⟩ after := by
  obtain ⟨built, hbuilt, h⟩ := (Attempt.value_bind_eq_ok (Attempt.passive_buildUri _ _) fun _ =>
    (Attempt.passive_lift (Session.passive_search _ _)).bind fun _ => passive_go _).1 h
  obtain ⟨answer, hanswer, h⟩ := (Attempt.value_bind_eq_ok
    (Attempt.passive_lift (Session.passive_search _ _)) fun _ => passive_go _).1 h
  rw [Attempt.value_lift, Session.run_search] at hanswer
  cases hanswer
  rw [Attempt.value_buildUri] at hbuilt
  cases hlocation : hasNul reference.location with
  | true => rw [if_pos hlocation] at hbuilt; cases hbuilt
  | false =>
      rw [hlocation, if_neg Bool.false_ne_true] at hbuilt
      split at hbuilt
      · cases hbuilt
      · cases hbuilt
        exact ⟨rfl, Move.leads_of_go h⟩

/-! ## What stays -/

/-- Entries are not changed, and places are not forgotten. -/
structure Grows (plan after : Plan E) : Prop where
  table : ∀ {url target : String}, plan.table.target? url = some target →
    after.table.target? url = some target
  visited : ∀ {place : String}, place ∈ plan.visited → place ∈ after.visited

theorem Grows.refl (plan : Plan E) : plan.Grows plan := ⟨id, id⟩

theorem Grows.trans {plan between after : Plan E} (h : plan.Grows between)
    (h' : between.Grows after) : plan.Grows after :=
  ⟨fun htarget => h'.table (h.table htarget), fun hplace => h'.visited (h.visited hplace)⟩

end Plan

namespace Move

/-- What a move has brought about: the place that it went on to is met, and if the catalog has an
answer, that place is the entry of the URL. -/
structure Settled (catalog : E.LoadedCatalog) (move : Move E) (after : Plan E) : Prop where
  location : hasNul move.reference.location = false
  visited : ∀ {place : String}, move.next catalog = some place → place ∈ after.visited
  entry : (move.answer catalog).isSome →
    ∃ place, move.next catalog = some place ∧ after.table.target? move.url = some place

theorem Settled.mono {catalog : E.LoadedCatalog} {move : Move E} {between after : Plan E}
    (h : move.Settled catalog between) (hgrows : between.Grows after) :
    move.Settled catalog after where
  location := h.location
  visited hnext := hgrows.visited (h.visited hnext)
  entry hanswer := by
    obtain ⟨place, hnext, htarget⟩ := h.entry hanswer
    exact ⟨place, hnext, hgrows.table htarget⟩

namespace Leads

variable {catalog : E.LoadedCatalog} {move : Move E} {after : Plan E}

theorem table (h : move.Leads catalog after) : after.table = (move.directed catalog).table := by
  cases h with
  | nowhere hnext => rw [directed_of_next_eq_none hnext]
  | again hnext hmet => rfl
  | reads hnext hnew hplace => exact Plan.arrive_table _ _

/-- The places met after a move are those met before and the one that it goes on to. -/
theorem mem_visited (h : move.Leads catalog after) {place : String} :
    place ∈ after.visited ↔ place ∈ move.plan.visited ∨ move.next catalog = some place := by
  cases h with
  | nowhere hnext =>
      rw [hnext]
      exact ⟨Or.inl, fun h => h.resolve_right (Option.some_ne_none _).symm⟩
  | again hnext hmet =>
      rw [directed_visited, hnext, Option.some_inj]
      exact ⟨Or.inl, fun h => h.elim id fun heq => heq ▸ hmet⟩
  | reads hnext hnew hplace =>
      rw [Plan.arrive, List.mem_append, List.mem_singleton, directed_visited, hnext,
        Option.some_inj, eq_comm]

theorem grows (h : move.Leads catalog after) : move.plan.Grows after where
  table htarget := by
    rw [h.table]
    cases hanswer : move.answer catalog with
    | none => rwa [directed_of_none hanswer]
    | some answer =>
        rw [directed_of_some hanswer]
        exact RedirectTable.target?_add_of_some htarget
  visited hplace := h.mem_visited.2 (Or.inl hplace)

theorem settled (h : move.Leads catalog after) (hlocation : hasNul move.reference.location = false) :
    move.Settled catalog after where
  location := hlocation
  visited hnext := h.mem_visited.2 (Or.inr hnext)
  entry hanswer := by
    obtain ⟨answer, hanswer⟩ := Option.isSome_iff_exists.1 hanswer
    have hnext := next_of_some hanswer
    rw [h.table]
    rw [directed_of_some hanswer, RedirectTable.target?_add, if_pos rfl] at hnext ⊢
    exact ⟨_, hnext, rfl⟩

/-- An entry that a move makes is what the catalog has, and where the walk goes on. -/
theorem entry (h : move.Leads catalog after) {url target : String}
    (htarget : after.table.target? url = some target) :
    move.plan.table.target? url = some target ∨
      move.url = url ∧ move.answer catalog = some target ∧ move.next catalog = some target := by
  rw [h.table] at htarget
  cases hanswer : move.answer catalog with
  | none =>
      rw [directed_of_none hanswer] at htarget
      exact Or.inl htarget
  | some answer =>
      have hnext := next_of_some hanswer
      rw [directed_of_some hanswer, RedirectTable.target?_add] at htarget hnext
      rw [if_pos rfl] at hnext
      split at htarget
      · next heq =>
          subst heq
          rw [htarget] at hnext
          cases hold : move.plan.table.target? move.url with
          | some old => rw [hold] at htarget; exact Or.inl htarget
          | none =>
              rw [hold] at htarget
              cases htarget
              exact Or.inr ⟨rfl, rfl, hnext⟩
      · exact Or.inl htarget

theorem pending (h : move.Leads catalog after) {item : E.Document × String}
    (hitem : item ∈ move.plan.pending) : item ∈ after.pending := by
  cases h with
  | nowhere hnext => exact hitem
  | again hnext hmet => rwa [directed_pending]
  | reads hnext hnew hplace =>
      rw [Plan.arrive, directed_pending]
      exact List.mem_append_right _ hitem

/-- A place that a move is the first to meet can be passed on, and its document is looked at
later. -/
theorem found (h : move.Leads catalog after) {place : String} (hmem : place ∈ after.visited)
    (hnew : place ∉ move.plan.visited) :
    hasNul place = false ∧
      ∀ document, E.documentAt none place = some document → (document, place) ∈ after.pending := by
  have hnext := (h.mem_visited.1 hmem).resolve_left hnew
  cases h with
  | nowhere hnext' => rw [hnext] at hnext'; cases hnext'
  | again hnext' hmet => rw [hnext] at hnext'; cases hnext'; exact absurd hmet hnew
  | reads hnext' hnew' hplace =>
      rw [hnext] at hnext'
      cases hnext'
      refine ⟨hplace, fun document hdocument => List.mem_append_left _ ?_⟩
      rw [hdocument]
      exact List.mem_singleton_self _

end Leads

end Move

end Schema

end Conformance
