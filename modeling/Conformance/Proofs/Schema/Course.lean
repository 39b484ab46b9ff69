import Conformance.Proofs.Schema.Crawling

/-!
# The course of a walk

What a walk has found out at any moment depends on the moves that it has made and on nothing else:
which places it has met, which URLs have entries and which documents are still to be looked at. This
module reads all three off the moves, also of a walk that ends in an error.

* `Move.reads?`, `Move.finds?` : the place where a move reads, and the document that it finds there;
* `firstAnswer?` : what the catalog has for the first of some moves from a URL;
* `Plan.Chain` : moves one after another, `Chain.visited_eq` and `Chain.target?_eq` : what they
  leave, `Chain.exists_split` : the same at each moment in between;
* `Plan.Proceeds` : a walk by the documents that it looks at, up to its end or its first error
  (`proceeds_of_walk`);
* `Plan.LastFirst` : of the documents found, the last is looked at first.
-/

namespace Conformance

variable {E : Engine}

namespace Schema

/-! ## What a move brings -/

namespace Move

/-- The place where a move reads: the one that it goes on to, unless that was met before. -/
def reads? (catalog : E.LoadedCatalog) (move : Move E) : Option String :=
  (move.next catalog).filter fun place => !move.plan.visited.contains place

/-- The document that a move finds where it reads, with its place. -/
def finds? (catalog : E.LoadedCatalog) (move : Move E) : Option (E.Document × String) :=
  (move.reads? catalog).bind fun place => (E.documentAt none place).map (·, place)

section

variable {catalog : E.LoadedCatalog} {move : Move E}

theorem reads?_eq_some_iff {place : String} :
    move.reads? catalog = some place ↔
      move.next catalog = some place ∧ place ∉ move.plan.visited := by
  simp [reads?, Option.filter_eq_some_iff]

theorem finds?_eq_some_iff {document : E.Document} {place : String} :
    move.finds? catalog = some (document, place) ↔ move.Finds catalog document place := by
  unfold finds?
  constructor
  · intro h
    obtain ⟨place', hreads, h⟩ := Option.bind_eq_some_iff.1 h
    obtain ⟨document', hdocument, heq⟩ := Option.map_eq_some_iff.1 h
    cases heq
    exact ⟨(reads?_eq_some_iff.1 hreads).1, (reads?_eq_some_iff.1 hreads).2, hdocument⟩
  · intro h
    rw [reads?_eq_some_iff.2 ⟨h.next, h.new⟩, Option.bind_some, h.document, Option.map_some]

end

namespace Leads

variable {catalog : E.LoadedCatalog} {move : Move E} {after : Plan E}

theorem visited_eq (h : move.Leads catalog after) :
    after.visited = move.plan.visited ++ (move.reads? catalog).toList := by
  cases h with
  | nowhere hnext => simp [reads?, hnext]
  | again hnext hmet => simp [reads?, hnext, hmet, directed_visited]
  | reads hnext hnew hplace =>
      rw [reads?_eq_some_iff.2 ⟨hnext, hnew⟩, Option.toList_some, Plan.arrive, directed_visited]

theorem pending_eq (h : move.Leads catalog after) :
    after.pending = (move.finds? catalog).toList ++ move.plan.pending := by
  cases h with
  | nowhere hnext => simp [finds?, reads?, hnext]
  | again hnext hmet => simp [finds?, reads?, hnext, hmet, directed_pending]
  | reads hnext hnew hplace =>
      rw [finds?, reads?_eq_some_iff.2 ⟨hnext, hnew⟩, Option.bind_some, Plan.arrive,
        directed_pending]

/-- An entry is there after a move if it was there before, or else if the move has made it. -/
theorem target?_eq (h : move.Leads catalog after) (url : String) :
    after.table.target? url =
      (move.plan.table.target? url).or (if move.url = url then move.answer catalog else none) := by
  rw [h.table]
  cases hanswer : move.answer catalog with
  | none => rw [directed_of_none hanswer, ite_self, Option.or_none]
  | some answer =>
      rw [directed_of_some hanswer, RedirectTable.target?_add]
      by_cases hurl : move.url = url
      · subst hurl
        rw [if_pos rfl, if_pos rfl]
        cases move.plan.table.target? move.url <;> rfl
      · rw [if_neg (Ne.symm hurl), if_neg hurl, Option.or_none]

end Leads

end Move

/-- What the catalog has for the first of some moves from a URL for which it has anything. -/
def firstAnswer? (catalog : E.LoadedCatalog) (moves : List (Move E)) (url : String) :
    Option String :=
  moves.findSome? fun move => if move.url = url then move.answer catalog else none

theorem firstAnswer?_cons (catalog : E.LoadedCatalog) (move : Move E) (moves : List (Move E))
    (url : String) :
    firstAnswer? catalog (move :: moves) url =
      (if move.url = url then move.answer catalog else none).or
        (firstAnswer? catalog moves url) := by
  rw [firstAnswer?, List.findSome?_cons, firstAnswer?]
  cases (if move.url = url then move.answer catalog else none) <;> rfl

theorem exists_of_firstAnswer? {catalog : E.LoadedCatalog} {moves : List (Move E)}
    {url target : String} (h : firstAnswer? catalog moves url = some target) :
    ∃ move ∈ moves, move.url = url ∧ move.answer catalog = some target := by
  obtain ⟨move, hmove, hanswer⟩ := List.exists_of_findSome?_eq_some h
  split at hanswer
  · next hurl => exact ⟨move, hmove, hurl, hanswer⟩
  · cases hanswer

theorem isSome_firstAnswer?_iff {catalog : E.LoadedCatalog} {moves : List (Move E)} {url : String} :
    (firstAnswer? catalog moves url).isSome ↔
      ∃ move ∈ moves, move.url = url ∧ (move.answer catalog).isSome := by
  rw [firstAnswer?, List.isSome_findSome?, List.any_eq_true]
  refine exists_congr fun move => and_congr_right fun _ => ?_
  by_cases hurl : move.url = url <;> simp [hurl]

namespace Plan

/-! ## Moves one after another -/

/-- Moves of which each starts with the table and the places that the one before has left. What is
pending is left out, since the walk takes a document from there between two moves. -/
inductive Chain (catalog : E.LoadedCatalog) : Plan E → List (Move E) → Plan E → Prop where
  | nil {plan after : Plan E} (htable : after.table = plan.table)
      (hvisited : after.visited = plan.visited) : Chain catalog plan [] after
  | cons {plan between after : Plan E} {move : Move E} {moves : List (Move E)}
      (htable : move.plan.table = plan.table) (hvisited : move.plan.visited = plan.visited)
      (hmove : move.Leads catalog between) (hrest : Chain catalog between moves after) :
      Chain catalog plan (move :: moves) after

namespace Chain

variable {catalog : E.LoadedCatalog} {plan between after : Plan E} {moves moves' : List (Move E)}

theorem start_congr {plan' : Plan E} (h : Chain catalog plan moves after)
    (htable : plan'.table = plan.table) (hvisited : plan'.visited = plan.visited) :
    Chain catalog plan' moves after := by
  cases h with
  | nil htable' hvisited' => exact .nil (htable'.trans htable.symm) (hvisited'.trans hvisited.symm)
  | cons htable' hvisited' hmove hrest =>
      exact .cons (htable'.trans htable.symm) (hvisited'.trans hvisited.symm) hmove hrest

theorem append (h : Chain catalog plan moves between) (h' : Chain catalog between moves' after) :
    Chain catalog plan (moves ++ moves') after := by
  induction h with
  | nil htable hvisited => exact h'.start_congr htable.symm hvisited.symm
  | cons htable hvisited hmove hrest ih => exact .cons htable hvisited hmove (ih h')

/-- The places met are those met before and those where the moves have read, in their order. -/
theorem visited_eq (h : Chain catalog plan moves after) :
    after.visited = plan.visited ++ moves.filterMap (Move.reads? catalog) := by
  induction h with
  | nil htable hvisited => rw [hvisited, List.filterMap_nil, List.append_nil]
  | cons htable hvisited hmove hrest ih =>
      rw [ih, hmove.visited_eq, hvisited, List.append_assoc, List.filterMap_cons]
      cases Move.reads? catalog _ <;> rfl

/-- The table has the first answer for each URL, after the entries that were there. -/
theorem target?_eq (h : Chain catalog plan moves after) (url : String) :
    after.table.target? url =
      (plan.table.target? url).or (firstAnswer? catalog moves url) := by
  induction h with
  | nil htable hvisited => rw [htable, firstAnswer?, List.findSome?_nil, Option.or_none]
  | cons htable hvisited hmove hrest ih =>
      rw [ih, hmove.target?_eq, htable, firstAnswer?_cons, Option.or_assoc]

/-- From a start without entries, the table has the first answers and nothing else. -/
theorem table_eq {document : E.Document} {place : String}
    (h : Chain catalog (start document place) moves after) (url : String) :
    after.table.target? url = firstAnswer? catalog moves url :=
  (h.target?_eq url).trans Option.none_or

/-- Each move stands between those before it and those after it. -/
theorem exists_split {before rest : List (Move E)} {move : Move E}
    (h : Chain catalog plan (before ++ move :: rest) after) :
    ∃ between, Chain catalog plan before move.plan ∧ move.Leads catalog between ∧
      Chain catalog between rest after := by
  induction before generalizing plan with
  | nil =>
      cases h with
      | cons htable hvisited hmove hrest => exact ⟨_, .nil htable hvisited, hmove, hrest⟩
  | cons first before ih =>
      cases h with
      | cons htable hvisited hmove hrest =>
          obtain ⟨between, hbefore, hleads, hafter⟩ := ih hrest
          exact ⟨between, .cons htable hvisited hmove hbefore, hleads, hafter⟩

/-- No place is read twice, and none that was met before. -/
theorem nodup_reads (h : Chain catalog plan moves after) :
    (moves.filterMap (Move.reads? catalog)).Nodup ∧
      ∀ place ∈ moves.filterMap (Move.reads? catalog), place ∉ plan.visited := by
  induction h with
  | nil htable hvisited => simp
  | @cons plan between after move moves htable hvisited hmove hrest ih =>
      obtain ⟨hnodup, hnew⟩ := ih
      rw [hmove.visited_eq, hvisited] at hnew
      rw [List.filterMap_cons]
      cases hreads : move.reads? catalog with
      | none =>
          rw [hreads, Option.toList_none, List.append_nil] at hnew
          exact ⟨hnodup, hnew⟩
      | some place =>
          rw [hreads] at hnew
          have hplace := (Move.reads?_eq_some_iff.1 hreads).2
          rw [hvisited] at hplace
          simp only [Option.toList_some, List.mem_append, List.mem_singleton, not_or] at hnew
          refine ⟨List.nodup_cons.2 ⟨fun hmem => (hnew place hmem).2 rfl, hnodup⟩, ?_⟩
          rw [List.forall_mem_cons]
          exact ⟨hplace, fun place' hmem => (hnew place' hmem).1⟩

/-- A place that was not met before is read at by the first of the moves that go on to it. -/
theorem exists_reads (h : Chain catalog plan moves after) {move : Move E} (hmove : move ∈ moves)
    {place : String} (hnext : move.next catalog = some place) (hnew : place ∉ plan.visited) :
    ∃ first ∈ moves, first.reads? catalog = some place := by
  obtain ⟨before, rest, rfl⟩ := List.append_of_mem hmove
  obtain ⟨between, hbefore, hleads, -⟩ := h.exists_split
  have hmem : place ∈ between.visited := hleads.mem_visited.2 (Or.inr hnext)
  rw [hleads.visited_eq, hbefore.visited_eq, List.append_assoc] at hmem
  have hread := (List.mem_append.1 hmem).resolve_left hnew
  rcases List.mem_append.1 hread with hread | hread
  · obtain ⟨first, hfirst, hreads⟩ := List.mem_filterMap.1 hread
    exact ⟨first, List.mem_append_left _ hfirst, hreads⟩
  · exact ⟨move, hmove, Option.mem_toList.1 hread⟩

/-- The places read from a start are all the other places that the moves go on to. -/
theorem mem_reads_iff {root : E.Document} {base place : String}
    (h : Chain catalog (start root base) moves after) :
    place ∈ moves.filterMap (Move.reads? catalog) ↔
      place ≠ base ∧ ∃ move ∈ moves, move.next catalog = some place := by
  constructor
  · intro hmem
    obtain ⟨move, hmove, hreads⟩ := List.mem_filterMap.1 hmem
    refine ⟨?_, move, hmove, (Move.reads?_eq_some_iff.1 hreads).1⟩
    rintro rfl
    exact h.nodup_reads.2 _ hmem (List.mem_singleton_self _)
  · rintro ⟨hplace, move, hmove, hnext⟩
    obtain ⟨first, hfirst, hreads⟩ :=
      h.exists_reads hmove hnext fun hstart => hplace (List.mem_singleton.1 hstart)
    exact List.mem_filterMap.2 ⟨first, hfirst, hreads⟩

/-- The documents found from a start are those at these places. -/
theorem exists_finds_iff {root document : E.Document} {base place : String}
    (h : Chain catalog (start root base) moves after) :
    (∃ move ∈ moves, move.Finds catalog document place) ↔
      place ≠ base ∧ E.documentAt none place = some document ∧
        ∃ move ∈ moves, move.next catalog = some place := by
  constructor
  · rintro ⟨move, hmove, hfinds⟩
    have hreads := Move.reads?_eq_some_iff.2 ⟨hfinds.next, hfinds.new⟩
    obtain ⟨hplace, hnext⟩ := h.mem_reads_iff.1 (List.mem_filterMap.2 ⟨move, hmove, hreads⟩)
    exact ⟨hplace, hfinds.document, hnext⟩
  · rintro ⟨hplace, hdocument, hnext⟩
    obtain ⟨move, hmove, hreads⟩ := List.mem_filterMap.1 (h.mem_reads_iff.2 ⟨hplace, hnext⟩)
    obtain ⟨hnext, hnew⟩ := Move.reads?_eq_some_iff.1 hreads
    exact ⟨move, hmove, hnext, hnew, hdocument⟩

end Chain

namespace Follows

variable {catalog : E.LoadedCatalog} {base : String} {plan after : Plan E}
  {references : List Reference} {moves : List (Move E)}

theorem chain (h : Follows catalog base plan references moves after) :
    Chain catalog plan moves after := by
  induction h with
  | nil plan => exact .nil rfl rfl
  | cons hlocation hmove hrest ih => exact .cons rfl rfl hmove ih

/-- The documents found are put before those that are pending, the last found first. -/
theorem pending_eq (h : Follows catalog base plan references moves after) :
    after.pending = (moves.filterMap (Move.finds? catalog)).reverse ++ plan.pending := by
  induction h with
  | nil plan => rfl
  | cons hlocation hmove hrest ih =>
      rw [ih, hmove.pending_eq, List.filterMap_cons]
      cases Move.finds? catalog _ <;> simp

theorem map_reference (h : Follows catalog base plan references moves after) :
    moves.map (·.reference) = references ∧ ∀ move ∈ moves, move.base = base := by
  induction h with
  | nil plan => exact ⟨rfl, fun _ h => absurd h List.not_mem_nil⟩
  | cons hlocation hmove hrest ih =>
      rw [List.map_cons, ih.1, List.forall_mem_cons]
      exact ⟨rfl, rfl, ih.2⟩

end Follows

/-! ## Document by document -/

/-- A document that a walk looks at, with its place and the moves from there. -/
structure Look (E : Engine) where
  document : E.Document
  base : String
  moves : List (Move E)

/-- A walk looks at one document after another, until none is left or the references of one cannot
be had. -/
inductive Proceeds (catalog : E.LoadedCatalog) :
    Plan E → List (Look E) → Except ValidationError (Plan E) → Prop where
  | done {plan : Plan E} (h : plan.pending = []) : Proceeds catalog plan [] (.ok plan)
  | fails {plan : Plan E} {document : E.Document} {base : String}
      {pending : List (E.Document × String)} {error : ValidationError}
      (hpending : plan.pending = (document, base) :: pending)
      (hreferences : (Reference.ofDocument document).value none = .error error) :
      Proceeds catalog plan [] (.error error)
  | look {plan between : Plan E} {document : E.Document} {base : String}
      {pending : List (E.Document × String)} {references : List Reference} {moves : List (Move E)}
      {looks : List (Look E)} {outcome : Except ValidationError (Plan E)}
      (hpending : plan.pending = (document, base) :: pending)
      (hreferences : (Reference.ofDocument document).value none = .ok references)
      (hfollows : Follows catalog base { plan with pending } references moves between)
      (hrest : Proceeds catalog between looks outcome) :
      Proceeds catalog plan (⟨document, base, moves⟩ :: looks) outcome

/-- Documents are looked at in the order of a stack: each that is found is put on top. -/
inductive LastFirst (catalog : E.LoadedCatalog) :
    List (E.Document × String) → List (Look E) → Prop where
  | nil : LastFirst catalog [] []
  | cons {look : Look E} {stack : List (E.Document × String)} {looks : List (Look E)}
      (h : LastFirst catalog ((look.moves.filterMap (Move.finds? catalog)).reverse ++ stack)
        looks) :
      LastFirst catalog ((look.document, look.base) :: stack) (look :: looks)

section

variable {catalog : E.LoadedCatalog}

/-- A walk by texts that can be passed on, with enough steps, proceeds to its end. -/
theorem proceeds_of_walk (catalog : E.LoadedCatalog) {count : Nat} {plan : Plan E}
    (hplan : plan.Passable) (hcount : plan.remaining ≤ count) :
    ∃ looks : List (Look E), looks.flatMap (·.moves) = moves catalog count plan ∧
      Proceeds catalog plan looks ((walk catalog count plan).value none) := by
  induction count generalizing plan with
  | zero =>
      rw [remaining] at hcount
      exact ⟨[], rfl, .done (List.eq_nil_of_length_eq_zero (by omega))⟩
  | succ count ih =>
      unfold walk moves
      cases hpending : plan.pending with
      | nil => exact ⟨[], rfl, .done hpending⟩
      | cons item pending =>
          obtain ⟨document, base⟩ := item
          simp only
          rw [Attempt.value_bind (Reference.passive_ofDocument _) fun _ =>
            (passive_followAll _ _ _ _).bind fun _ => passive_walk _ _ _]
          cases hreferences : (Reference.ofDocument document).value none with
          | error error => exact ⟨[], rfl, .fails hpending hreferences⟩
          | ok references =>
              have hpassable : ∀ reference ∈ references, reference.Passable :=
                Reference.gives_ofDocument document (Thread.under none) references hreferences
              obtain ⟨hbase, hrest⟩ := hplan.of_pending hpending
              obtain ⟨between, hbetween, hpassable'⟩ :=
                exists_followAll catalog hrest hbase hpassable
              have hfollows := follows_of_followAll hbetween
              have hless : between.remaining ≤ count := by
                have hle := hfollows.remaining_le
                simp only [remaining, hpending, List.length_cons, unmet] at hle hcount ⊢
                omega
              obtain ⟨looks, hmoves, hproceeds⟩ := ih hpassable' hless
              refine ⟨⟨document, base, _⟩ :: looks, ?_, .look hpending hreferences hfollows ?_⟩
              · simp only [List.flatMap_cons, hmoves, hbetween]
              · have hvalue : (followAll catalog base { plan with pending } references >>=
                    walk catalog count).value none = (walk catalog count between).value none := by
                  rw [Attempt.value_bind (passive_followAll _ _ _ _) fun _ => passive_walk _ _ _,
                    hbetween]
                  rfl
                rw [← hvalue] at hproceeds
                exact hproceeds

namespace Proceeds

variable {plan : Plan E} {looks : List (Look E)} {outcome : Except ValidationError (Plan E)}

/-- The moves of a walk make one chain. -/
theorem exists_chain (h : Proceeds catalog plan looks outcome) :
    ∃ last, Chain catalog plan (looks.flatMap (·.moves)) last ∧
      ∀ after, outcome = .ok after → after = last := by
  induction h with
  | @done plan h => exact ⟨plan, .nil rfl rfl, fun after hafter => (Except.ok.inj hafter).symm⟩
  | @fails plan _ _ _ _ hpending hreferences =>
      exact ⟨plan, .nil rfl rfl, fun after hafter => (nomatch hafter)⟩
  | look hpending hreferences hfollows hrest ih =>
      obtain ⟨last, hchain, hlast⟩ := ih
      exact ⟨last, (hfollows.chain.append hchain).start_congr rfl rfl, hlast⟩

/-- The moves from a document follow its references in document order. -/
theorem references (h : Proceeds catalog plan looks outcome) :
    ∀ look ∈ looks,
      (Reference.ofDocument look.document).value none = .ok (look.moves.map (·.reference)) ∧
        ∀ move ∈ look.moves, move.base = look.base := by
  induction h with
  | done h => simp
  | fails hpending hreferences => simp
  | look hpending hreferences hfollows hrest ih =>
      obtain ⟨hmap, hbase⟩ := hfollows.map_reference
      rw [List.forall_mem_cons]
      exact ⟨⟨hreferences.trans (congrArg Except.ok hmap.symm), hbase⟩, ih⟩

/-- What is so of a move is so of a reference in a document that was looked at. -/
theorem exists_move_iff (h : Proceeds catalog plan looks outcome)
    (P : Reference → String → Prop) :
    (∃ move ∈ looks.flatMap (·.moves), P move.reference move.base) ↔
      ∃ look ∈ looks, ∃ references,
        (Reference.ofDocument look.document).value none = .ok references ∧
          ∃ reference ∈ references, P reference look.base := by
  constructor
  · rintro ⟨move, hmove, hP⟩
    obtain ⟨look, hlook, hmove⟩ := List.mem_flatMap.1 hmove
    obtain ⟨hreferences, hbase⟩ := h.references look hlook
    rw [hbase move hmove] at hP
    exact ⟨look, hlook, _, hreferences, _, List.mem_map_of_mem hmove, hP⟩
  · rintro ⟨look, hlook, references, hreferences, reference, hmem, hP⟩
    obtain ⟨hreferences', hbase⟩ := h.references look hlook
    rw [hreferences] at hreferences'
    cases hreferences'
    obtain ⟨move, hmove, rfl⟩ := List.mem_map.1 hmem
    rw [← hbase move hmove] at hP
    exact ⟨move, List.mem_flatMap.2 ⟨look, hlook, hmove⟩, hP⟩

theorem lastFirst {after : Plan E} (h : Proceeds catalog plan looks (.ok after)) :
    LastFirst catalog plan.pending looks := by
  generalize houtcome : (Except.ok after : Except ValidationError (Plan E)) = outcome at h
  induction h with
  | done h =>
      rw [h]
      exact .nil
  | fails hpending hreferences => cases houtcome
  | @look plan between document base pending references moves looks outcome hpending hreferences
      hfollows hrest ih =>
      have htail := ih houtcome
      rw [hfollows.pending_eq] at htail
      rw [hpending]
      exact @LastFirst.cons E catalog ⟨document, base, moves⟩ pending looks htail

end Proceeds

namespace LastFirst

variable {stack : List (E.Document × String)} {looks : List (Look E)}

/-- What is on the stack is looked at. -/
theorem exists_look_of_mem (h : LastFirst catalog stack looks) {document : E.Document}
    {place : String} (hmem : (document, place) ∈ stack) :
    ∃ look ∈ looks, look.document = document ∧ look.base = place := by
  induction h with
  | nil => cases hmem
  | @cons look stack looks h ih =>
      rcases List.mem_cons.1 hmem with heq | hmem
      · cases heq
        exact ⟨look, List.mem_cons_self, rfl, rfl⟩
      · obtain ⟨look', hlook, heq⟩ := ih (List.mem_append_right _ hmem)
        exact ⟨look', List.mem_cons_of_mem _ hlook, heq⟩

/-- What is looked at was on the stack or was found, and all of that is looked at. -/
theorem exists_look_iff (h : LastFirst catalog stack looks) {document : E.Document}
    {place : String} :
    (∃ look ∈ looks, look.document = document ∧ look.base = place) ↔
      (document, place) ∈ stack ∨
        ∃ move ∈ looks.flatMap (·.moves), move.Finds catalog document place := by
  induction h with
  | nil => simp
  | @cons look stack looks h ih =>
      constructor
      · rintro ⟨look', hlook, rfl, rfl⟩
        rcases List.mem_cons.1 hlook with rfl | hlook
        · exact Or.inl List.mem_cons_self
        · rcases ih.1 ⟨look', hlook, rfl, rfl⟩ with hmem | ⟨move, hmove, hfinds⟩
          · rcases List.mem_append.1 hmem with hmem | hmem
            · obtain ⟨move, hmove, hfinds⟩ := List.mem_filterMap.1 (List.mem_reverse.1 hmem)
              exact Or.inr ⟨move, List.mem_flatMap.2 ⟨look, List.mem_cons_self, hmove⟩,
                Move.finds?_eq_some_iff.1 hfinds⟩
            · exact Or.inl (List.mem_cons_of_mem _ hmem)
          · rw [List.flatMap_cons]
            exact Or.inr ⟨move, List.mem_append_right _ hmove, hfinds⟩
      · rintro (hmem | ⟨move, hmove, hfinds⟩)
        · exact exists_look_of_mem (.cons h) hmem
        · rw [List.flatMap_cons] at hmove
          rcases List.mem_append.1 hmove with hmove | hmove
          · have hfound : (document, place) ∈ look.moves.filterMap (Move.finds? catalog) :=
              List.mem_filterMap.2 ⟨move, hmove, Move.finds?_eq_some_iff.2 hfinds⟩
            obtain ⟨look', hlook, heq⟩ := exists_look_of_mem h
              (List.mem_append_left _ (List.mem_reverse.2 hfound))
            exact ⟨look', List.mem_cons_of_mem _ hlook, heq⟩
          · obtain ⟨look', hlook, heq⟩ := ih.2 (Or.inr ⟨move, hmove, hfinds⟩)
            exact ⟨look', List.mem_cons_of_mem _ hlook, heq⟩

end LastFirst

/-- What is planned for a root is planned from what the root is parsed as. -/
theorem fst_run_redirects {root : Loaded} {thread : Thread E}
    (hthread : thread.resolution = none) :
    ((redirects catalog root).outcome.run thread).1 =
      (Attempt.parse root.octets root.systemId).value none >>= fun document =>
        (walkFrom catalog root document).value none := by
  rw [run_redirects_fst, hthread,
    Attempt.value_bind (Attempt.passive_parse _ _) (passive_walkFrom catalog root)]

/-- What is planned for a root that parses is the table of a walk that proceeds from there. -/
theorem exists_proceeds (catalog : E.LoadedCatalog) {root : Loaded} {document : E.Document}
    {thread : Thread E} (hthread : thread.resolution = none)
    (hparse : (Attempt.parse root.octets root.systemId).value none = .ok (some document)) :
    ∃ looks outcome, looks.flatMap (·.moves) = history catalog root ∧
      Proceeds catalog (start document root.systemId) looks outcome ∧
      ((redirects catalog root).outcome.run thread).1 = outcome.map (·.table) := by
  have hroot := Attempt.hasNul_of_value_parse hparse
  obtain ⟨looks, hmoves, hproceeds⟩ :=
    proceeds_of_walk catalog (passable_start document hroot) (remaining_start _ _)
  refine ⟨looks, _, ?_, hproceeds, ?_⟩
  · rw [hmoves, history, hparse]
  · rw [fst_run_redirects hthread, hparse]
    exact Attempt.value_bind (passive_walk _ _ _) (fun _ => Attempt.passive_pure _) none

/-- The history of a walk is one chain from its start, also if the walk ends in an error. -/
theorem exists_chain_history (catalog : E.LoadedCatalog) {root : Loaded} {document : E.Document}
    (hparse : (Attempt.parse root.octets root.systemId).value none = .ok (some document)) :
    ∃ last, Chain catalog (start document root.systemId) (history catalog root) last := by
  have hfresh : (Thread.fresh : Thread E).resolution = none := rfl
  obtain ⟨looks, _, hmoves, hproceeds, -⟩ := exists_proceeds catalog hfresh hparse
  obtain ⟨last, hchain, -⟩ := hproceeds.exists_chain
  exact ⟨last, hmoves ▸ hchain⟩

/-- Without a document to start from there is no history. -/
theorem history_of_unparsed {catalog : E.LoadedCatalog} {root : Loaded}
    (h : ∀ document : E.Document,
      (Attempt.parse root.octets root.systemId).value none ≠ .ok (some document)) :
    history catalog root = [] := by
  unfold history
  split
  · next document hparse => exact absurd hparse (h document)
  · rfl

end

end Plan

end Schema

end Conformance
