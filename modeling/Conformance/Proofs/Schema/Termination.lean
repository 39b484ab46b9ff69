import Conformance.Proofs.Engine.Asking
import Conformance.Proofs.Schema.Course

/-!
# The end of a walk, and what is asked for on the way

A walk puts documents on its stack as it goes, and places that it cannot read are without number.
Still it ends: a place is met once, so each document that is put on the stack is one less of those
that can be read at all. The bound that the walk is given is never what stops it.

* `Plan.Halts` : a walk without a bound comes to an end, `halts_walk` : to the same as with one;
* `Move.asks` : the lookups and the read of a move, `Plan.asks_walk`, `Plan.asks_redirects` : they
  are made for all moves, and no others;
* `Plan.reads_redirects` : the engine is asked to read where the moves read, and nowhere else;
* `Chain.exists_answer_of_reads` : a place on another host was an answer of the catalog;
* `halts_and_reads_once` : the walk from a root ends and reads each document once.
-/

namespace Conformance

namespace Schema

variable {E : Engine} {catalog : E.LoadedCatalog} {root : Loaded}

/-! ## The loop without a bound -/

namespace Plan

/-- A walk on a thread, from a plan to its outcome, without a bound of the documents that it looks
at. A walk that went on for ever would not be one of these. -/
inductive Halts (catalog : E.LoadedCatalog) :
    Plan E → Thread E → Except ValidationError (Plan E) × Thread E → Prop where
  | done {plan : Plan E} {thread : Thread E} (h : plan.pending = []) :
      Halts catalog plan thread (.ok plan, thread)
  | unread {plan : Plan E} {thread after : Thread E} {document : E.Document} {base : String}
      {pending : List (E.Document × String)} {error : ValidationError}
      (hpending : plan.pending = (document, base) :: pending)
      (hreferences : (Reference.ofDocument document).outcome.run thread = (.error error, after)) :
      Halts catalog plan thread (.error error, after)
  | stopped {plan : Plan E} {thread between after : Thread E} {document : E.Document}
      {base : String} {pending : List (E.Document × String)} {references : List Reference}
      {error : ValidationError} (hpending : plan.pending = (document, base) :: pending)
      (hreferences : (Reference.ofDocument document).outcome.run thread = (.ok references, between))
      (hfollow : (followAll catalog base { plan with pending } references).outcome.run between =
        (.error error, after)) :
      Halts catalog plan thread (.error error, after)
  | goesOn {plan next : Plan E} {thread between after : Thread E} {document : E.Document}
      {base : String} {pending : List (E.Document × String)} {references : List Reference}
      {result : Except ValidationError (Plan E) × Thread E}
      (hpending : plan.pending = (document, base) :: pending)
      (hreferences : (Reference.ofDocument document).outcome.run thread = (.ok references, between))
      (hfollow : (followAll catalog base { plan with pending } references).outcome.run between =
        (.ok next, after))
      (hrest : Halts catalog next after result) : Halts catalog plan thread result

/-- A walk that is given enough steps does what it would do without a bound. -/
theorem halts_walk {count : Nat} {plan : Plan E} (hcount : plan.remaining ≤ count)
    {thread : Thread E} (hthread : thread.resolution = none) :
    Halts catalog plan thread ((walk catalog count plan).outcome.run thread) := by
  induction count generalizing plan thread with
  | zero =>
      rw [remaining] at hcount
      exact .done (List.eq_nil_of_length_eq_zero (by omega))
  | succ count ih =>
      unfold walk
      cases hpending : plan.pending with
      | nil => exact .done hpending
      | cons item pending =>
          obtain ⟨document, base⟩ := item
          simp only
          rw [Attempt.run_bind]
          have hkept := (Reference.passive_ofDocument document).run_resolution thread
          rcases hreferences : (Reference.ofDocument document).outcome.run thread with
            ⟨error | references, between⟩
          · exact .unread hpending hreferences
          · rw [hreferences, hthread] at hkept
            simp only
            rw [Attempt.run_bind]
            have hpassive := passive_followAll catalog base { plan with pending } references
            have hvalue := hpassive.run_fst between
            have hkept' := hpassive.run_resolution between
            rcases hfollow : (followAll catalog base { plan with pending } references).outcome.run
              between with ⟨error | next, after⟩
            · exact .stopped hpending hreferences hfollow
            · rw [hfollow, hkept] at hvalue hkept'
              have hless : next.remaining ≤ count := by
                have hle := (follows_of_followAll hvalue.symm).remaining_le
                simp only [remaining, hpending, List.length_cons, unmet] at hle hcount ⊢
                omega
              exact .goesOn hpending hreferences hfollow (ih hless hkept')

end Plan

/-! ## Calls -/

namespace Reference

theorem asksNothing_ofDocument (document : E.Document) : (ofDocument document).AsksNothing :=
  (inquires_ofDocument document).asksNothing

/-- The lookups for a reference that can be passed on are all put to the catalog. -/
theorem Passable.consulted {reference : Reference} (h : reference.Passable) (base : String) :
    (Catalog.consulted (E.ask catalog) (reference.request base).lookups).filter
        (fun lookup => !hasNul lookup.key) =
      Catalog.consulted (E.reply catalog) (reference.request base).lookups := by
  have hkeys := h.hasNul_lookups base
  rw [Catalog.consulted_congr fun lookup hlookup => Engine.ask_eq_reply (hkeys lookup hlookup),
    List.filter_eq_self.2]
  intro lookup hlookup
  rw [hkeys lookup (Catalog.mem_of_mem_consulted hlookup)]
  rfl

end Reference

/-- The lookups that a move makes until one has an answer, whatever their keys are. -/
def Move.lookups (catalog : E.LoadedCatalog) (move : Move E) : List Catalog.Lookup :=
  Catalog.consulted (E.reply catalog) (move.reference.request move.base).lookups

/-- The calls by which a move asks for something: its lookups, and then its read, if it reads. -/
def Move.asks (catalog : E.LoadedCatalog) (move : Move E) : List Call :=
  (move.lookups catalog).map Call.lookup ++ (move.reads? catalog).toList.map Call.read

theorem Move.filterMap_read?_asks (catalog : E.LoadedCatalog) (move : Move E) :
    (move.asks catalog).filterMap Call.read? = (move.reads? catalog).toList := by
  have hlookups : (move.lookups catalog).filterMap (Call.read? ∘ Call.lookup) = [] :=
    List.filterMap_eq_nil_iff.2 fun _ _ => rfl
  rw [asks, List.filterMap_append, List.filterMap_map, List.filterMap_map, hlookups]
  exact List.filterMap_some

theorem Move.filterMap_lookup?_asks (catalog : E.LoadedCatalog) (move : Move E) :
    (move.asks catalog).filterMap Call.lookup? = move.lookups catalog := by
  have hreads : (move.reads? catalog).toList.filterMap (Call.lookup? ∘ Call.read) = [] :=
    List.filterMap_eq_nil_iff.2 fun _ _ => rfl
  rw [asks, List.filterMap_append, List.filterMap_map, List.filterMap_map, hreads, List.append_nil]
  exact List.filterMap_some

namespace Plan

theorem asks_visit {plan after : Plan E} {place : String}
    (h : (plan.visit place).value none = .ok after) :
    (plan.visit place).asks = if plan.visited.contains place then [] else [.read place] := by
  rw [value_visit] at h
  unfold visit
  split
  · rfl
  · next hnew =>
      rw [if_neg hnew] at h
      have hplace : hasNul place = false := by
        cases hplace : hasNul place with
        | false => rfl
        | true =>
            rw [hplace] at h
            cases h
      rw [Attempt.asks_bind (Attempt.passive_read place) fun _ => Attempt.passive_pure _,
        Attempt.asks_read, Attempt.value_read, hplace]
      rfl

theorem asks_go {base : String} {plan after : Plan E} {reference : Reference}
    (h : Attempt.value (match
      plan.direct (reference.url E base) (reference.answer catalog base) with
        | (plan, some place) => plan.visit place
        | (plan, none) => pure plan) none = .ok after) :
    Attempt.asks (match plan.direct (reference.url E base) (reference.answer catalog base) with
      | (plan, some place) => plan.visit place
      | (plan, none) => pure plan) =
        (Move.reads? catalog ⟨plan, base, reference⟩).toList.map Call.read := by
  have hdirect := Move.direct_eq catalog ⟨plan, base, reference⟩
  rw [Move.url, Move.answer] at hdirect
  rw [hdirect] at h ⊢
  generalize (⟨plan, base, reference⟩ : Move E) = move at h ⊢
  cases hnext : move.next catalog with
  | none =>
      rw [Move.reads?, hnext]
      rfl
  | some place =>
      rw [hnext] at h
      simp only at h ⊢
      rw [asks_visit h, Move.directed_visited, Move.reads?, hnext, Option.filter_some]
      cases move.plan.visited.contains place <;> rfl

/-- A reference that is followed without an error makes the calls of the move. -/
theorem asks_follow {base : String} {plan after : Plan E} {reference : Reference}
    (hreference : reference.Passable)
    (h : (follow catalog base plan reference).value none = .ok after) :
    (follow catalog base plan reference).asks = Move.asks catalog ⟨plan, base, reference⟩ := by
  obtain ⟨built, hbuilt, h⟩ := (Attempt.value_bind_eq_ok (Attempt.passive_buildUri _ _) fun _ =>
    (Attempt.passive_lift (Session.passive_search _ _)).bind fun _ => passive_go _).1 h
  obtain ⟨answer, hanswer, h⟩ := (Attempt.value_bind_eq_ok
    (Attempt.passive_lift (Session.passive_search _ _)) fun _ => passive_go _).1 h
  refine ((Attempt.asksNothing_buildUri _ _).asks_bind_of_ok (fun _ =>
    (Attempt.passive_lift (Session.passive_search _ _)).bind fun _ => passive_go _) hbuilt).trans ?_
  refine (Attempt.asks_bind (Attempt.passive_lift (Session.passive_search _ _))
    fun _ => passive_go _).trans ?_
  rw [Attempt.asks_search, hreference.consulted, hanswer]
  refine congrArg (List.append _) ?_
  rw [Attempt.value_lift, Session.run_search] at hanswer
  cases hanswer
  rw [Attempt.value_buildUri] at hbuilt
  split at hbuilt
  · cases hbuilt
  · split at hbuilt
    · cases hbuilt
    · cases hbuilt
      exact asks_go h

/-- References that can be passed on make the calls of the moves, in their order. -/
theorem asks_followAll {base : String} {plan : Plan E} {references : List Reference}
    (hplan : plan.Passable) (hbase : hasNul base = false)
    (hreferences : ∀ reference ∈ references, reference.Passable) :
    (followAll catalog base plan references).asks =
      (movesAll catalog base plan references).flatMap (Move.asks catalog) := by
  induction references generalizing plan with
  | nil => rfl
  | cons reference references ih =>
      rw [List.forall_mem_cons] at hreferences
      obtain ⟨between, hbetween, hpassable⟩ := exists_follow catalog hplan hbase hreferences.1
      have hrest := ih hpassable hreferences.2
      rw [followAll, Attempt.asks_bind (passive_follow _ _ _ _) fun _ => passive_followAll _ _ _ _,
        asks_follow hreferences.1 hbetween, movesAll, hbetween, List.flatMap_cons]
      simp only [hrest]

theorem asks_walk {count : Nat} {plan : Plan E} (hplan : plan.Passable) :
    (walk catalog count plan).asks = (moves catalog count plan).flatMap (Move.asks catalog) := by
  induction count generalizing plan with
  | zero => rfl
  | succ count ih =>
      unfold walk moves
      cases hpending : plan.pending with
      | nil => rfl
      | cons item pending =>
          obtain ⟨document, base⟩ := item
          simp only
          rw [Attempt.asks_bind (Reference.passive_ofDocument _) fun _ =>
            (passive_followAll _ _ _ _).bind fun _ => passive_walk _ _ _,
            (Reference.asksNothing_ofDocument document).asks]
          cases hreferences : (Reference.ofDocument document).value none with
          | error error => rfl
          | ok references =>
              have hpassable : ∀ reference ∈ references, reference.Passable :=
                Reference.gives_ofDocument document (Thread.under none) references hreferences
              obtain ⟨hbase, hrest⟩ := hplan.of_pending hpending
              obtain ⟨between, hbetween, hpassable'⟩ :=
                exists_followAll catalog hrest hbase hpassable
              simp only [List.nil_append]
              rw [Attempt.asks_bind (passive_followAll _ _ _ _) fun _ => passive_walk _ _ _,
                asks_followAll hrest hbase hpassable, hbetween, List.flatMap_append]
              simp only [ih hpassable']

/-- The collector that is installed for the planning changes nothing about its calls. -/
theorem does_redirects (catalog : E.LoadedCatalog) (root : Loaded) :
    Attempt.Does none (redirects catalog root)
      ((Attempt.parse root.octets root.systemId >>= walkFrom catalog root).calls none)
      ((Attempt.parse root.octets root.systemId >>= walkFrom catalog root).value none) := by
  have hpassive : (Attempt.parse root.octets root.systemId >>= walkFrom catalog root).Passive :=
    (Attempt.passive_parse _ _).bind (passive_walkFrom catalog root)
  obtain ⟨_, hhears⟩ := hpassive.hears none
  exact (hhears.capturing root.systemId).conclude rfl

/-- By the calls of its own choice planning does what the moves of the walk do, and nothing else. -/
theorem asks_redirects (catalog : E.LoadedCatalog) (root : Loaded) :
    (redirects catalog root).asks = (history catalog root).flatMap (Move.asks catalog) := by
  have hasks : (Attempt.parse root.octets root.systemId >>= walkFrom catalog root).asks = _ :=
    Attempt.asks_bind (Attempt.passive_parse _ _) (passive_walkFrom catalog root)
  rw [(Attempt.asksNothing_parse _ _).asks, List.nil_append] at hasks
  rw [Attempt.asks, (does_redirects catalog root).calls_eq, history]
  refine hasks.trans ?_
  cases hparse : (Attempt.parse root.octets root.systemId).value (E := E) none with
  | error error => rfl
  | ok parsed =>
      cases parsed with
      | none => rfl
      | some document =>
          have hroot := Attempt.hasNul_of_value_parse hparse
          refine (Attempt.asks_bind (passive_walk _ _ _) fun _ => Attempt.passive_pure _).trans ?_
          rw [asks_walk (passable_start document hroot)]
          cases (walk catalog (E.library.length + 1) (start document root.systemId)).value none
            <;> exact List.append_nil _

/-- What is picked of the calls of planning is picked of those of the moves. -/
theorem filterMap_calls_redirects (catalog : E.LoadedCatalog) (root : Loaded) {γ : Type}
    {pick : Call → Option γ} (h : ∀ call, call.asks = false → pick call = none) :
    ((redirects catalog root).calls none).filterMap pick =
      (history catalog root).flatMap fun move => (move.asks catalog).filterMap pick := by
  rw [← Call.filterMap_filter_asks h, ← Attempt.asks, asks_redirects, List.filterMap_flatMap]

/-- Planning reads at the places where the moves of the walk read, and nowhere else. -/
theorem reads_redirects (catalog : E.LoadedCatalog) (root : Loaded) :
    (redirects catalog root).reads none =
      (history catalog root).filterMap (Move.reads? catalog) := by
  rw [Attempt.reads, filterMap_calls_redirects catalog root fun _ => Call.read?_of_not_asks,
    List.filterMap_eq_flatMap_toList]
  simp only [Move.filterMap_read?_asks]

theorem journal_redirects (catalog : E.LoadedCatalog) (root : Loaded) {thread : Thread E}
    (hthread : thread.resolution = none) :
    ((redirects catalog root).outcome.run thread).2.journal =
      thread.journal ++ (redirects catalog root).calls none := by
  have hdoes := does_redirects catalog root
  obtain ⟨after, hrun, -, hjournal⟩ := hdoes thread hthread
  rw [hdoes.calls_eq, hrun, hjournal]

/-- What planning reads is in the journal of the thread. -/
theorem exists_journal_redirects (catalog : E.LoadedCatalog) (root : Loaded) {thread : Thread E}
    (hthread : thread.resolution = none) :
    ∃ calls, ((redirects catalog root).outcome.run thread).2.journal = thread.journal ++ calls ∧
      calls.filterMap Call.read? = (redirects catalog root).reads none :=
  ⟨_, journal_redirects catalog root hthread, rfl⟩

/-- Where a move reads on another host, the catalog has sent it there. -/
theorem Chain.exists_answer_of_reads {document : E.Document} {base : String}
    {moves : List (Move E)} {after : Plan E} (h : Chain catalog (start document base) moves after)
    {place : String} (hreads : place ∈ moves.filterMap (Move.reads? catalog))
    (hremote : Catalog.isRemote place = true) :
    ∃ move ∈ moves, move.answer catalog = some place := by
  obtain ⟨move, hmove, hread⟩ := List.mem_filterMap.1 hreads
  obtain ⟨before, rest, rfl⟩ := List.append_of_mem hmove
  obtain ⟨between, hbefore, hleads, -⟩ := h.exists_split
  have hnext := (Move.reads?_eq_some_iff.1 hread).1
  cases hanswer : move.answer catalog with
  | none =>
      rw [Move.next_of_none hanswer] at hnext
      split at hnext
      · cases hnext
      · next hlocal =>
          cases hnext
          exact absurd hremote hlocal
  | some answer =>
      -- the walk goes on to the entry of the URL, which this move or one before it has made
      rw [Move.next_of_some hanswer, ← hleads.table] at hnext
      rcases hleads.entry hnext with hold | ⟨-, hanswered, -⟩
      · rw [hbefore.table_eq] at hold
        obtain ⟨origin, horigin, -, hanswered⟩ := exists_of_firstAnswer? hold
        exact ⟨origin, List.mem_append_left _ horigin, hanswered⟩
      · exact ⟨move, hmove, hanswered⟩

/-- Calls that read once at each place that the walk from a root goes on to, but never at the place
of the root, and on another host only where the catalog has sent the walk. -/
structure ReadsOnce (catalog : E.LoadedCatalog) (root : Loaded) (calls : List Call) : Prop where
  nodup : (calls.filterMap Call.read?).Nodup
  start : root.systemId ∉ calls.filterMap Call.read?
  next : ∀ move ∈ history catalog root, ∀ place, move.next catalog = some place →
    place ≠ root.systemId → place ∈ calls.filterMap Call.read?
  remote : ∀ place ∈ calls.filterMap Call.read?, Catalog.isRemote place = true →
    ∃ move ∈ history catalog root, move.answer catalog = some place

theorem readsOnce_of_reads {calls : List Call}
    (h : calls.filterMap Call.read? = (redirects catalog root).reads none) :
    ReadsOnce catalog root calls := by
  rw [reads_redirects] at h
  by_cases hroot : ∃ document : E.Document,
      (Attempt.parse root.octets root.systemId).value none = .ok (some document)
  · obtain ⟨document, hparse⟩ := hroot
    obtain ⟨last, hchain⟩ := exists_chain_history catalog hparse
    constructor
    · rw [h]
      exact hchain.nodup_reads.1
    · rw [h]
      exact fun hmem => (hchain.mem_reads_iff.1 hmem).1 rfl
    · rw [h]
      exact fun move hmove place hnext hplace =>
        hchain.mem_reads_iff.2 ⟨hplace, move, hmove, hnext⟩
    · rw [h]
      exact fun place hmem hremote => hchain.exists_answer_of_reads hmem hremote
  · have hhistory : history catalog root = [] :=
      history_of_unparsed fun document hparse => hroot ⟨document, hparse⟩
    constructor <;> simp [h, hhistory]

/-- The walk from a root comes to an end, and reads each document once. -/
theorem halts_and_reads_once (catalog : E.LoadedCatalog) (root : Loaded) {thread : Thread E}
    (hthread : thread.resolution = none) :
    (∀ document, (Attempt.parse root.octets root.systemId).value none = .ok (some document) →
      ∀ walking : Thread E, walking.resolution = none →
        Halts catalog (start document root.systemId) walking
          ((walk catalog (E.library.length + 1) (start document root.systemId)).outcome.run
            walking)) ∧
      ∃ calls, ((redirects catalog root).outcome.run thread).2.journal = thread.journal ++ calls ∧
        ReadsOnce catalog root calls := by
  refine ⟨fun document _ walking hwalking => halts_walk (remaining_start _ _) hwalking, ?_⟩
  obtain ⟨calls, hjournal, hreads⟩ := exists_journal_redirects catalog root hthread
  exact ⟨calls, hjournal, readsOnce_of_reads hreads⟩

/-- A root with an import that leads nowhere, one on another host that no catalog knows, and one of
a schema that imports itself and the root. -/
def tangled : Engine :=
  .ofSheets [("root.xsd", [⟨"", "none.xsd"⟩, ⟨"", "http://h/x.xsd"⟩, ⟨"urn:y", "y.xsd"⟩,
    ⟨"", "none.xsd"⟩]), ("http://h/y.xsd", [⟨"urn:y", "y.xsd"⟩, ⟨"", "root.xsd"⟩])]

/-- A catalog for the tangled documents, which sends one reference to another host. -/
def tangledEntries : Catalog.Entries :=
  ⟨[], [("urn:y/y.xsd", "http://h/y.xsd")], []⟩

theorem halts_and_reads_once_tangled :
    ∃ calls, ((redirects (E := tangled) tangledEntries ⟨[], "root.xsd"⟩).outcome.run
        Thread.fresh).2.journal = calls ∧
      calls.filterMap Call.read? = ["none.xsd", "http://h/y.xsd"] ∧
      ∃ move ∈ history (E := tangled) tangledEntries ⟨[], "root.xsd"⟩,
        move.answer (E := tangled) tangledEntries = some "http://h/y.xsd" := by
  have hfresh : (Thread.fresh : Thread tangled).resolution = none := rfl
  obtain ⟨-, calls, hjournal, honce⟩ :=
    halts_and_reads_once tangledEntries ⟨[], "root.xsd"⟩ hfresh
  have hreads : calls.filterMap Call.read? = ["none.xsd", "http://h/y.xsd"] := by
    have hcalls : _ = calls := hjournal
    rw [← hcalls]
    rfl
  refine ⟨calls, hjournal, hreads, honce.remote _ ?_ rfl⟩
  rw [hreads]
  exact List.mem_cons_of_mem _ List.mem_cons_self

end Plan

end Schema

end Conformance
