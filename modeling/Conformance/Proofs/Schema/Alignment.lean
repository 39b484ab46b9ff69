import Conformance.Proofs.Schema.History

/-!
# Where the walk goes on and where the loader leads

The walk that plans redirects means to go on where the engine will read once the table is in
force. For a reference that the catalog resolves it does, since the first resolution of a URL
stays. For any other local reference it goes on at the URL itself, and so it strays if another
reference to that URL, met before or after, has an entry that leads elsewhere.

* `target_eq_next_iff` : the exact condition under which the loader leads a reference where the
  walk went on, with an engine on which it does (`target_eq_next_rivals`) and does not
  (`target_ne_next_rivals`).
-/

namespace Conformance

variable {E : Engine}

namespace Schema

namespace Plan

variable {catalog : E.LoadedCatalog} {root : Loaded} {thread : Thread E} {table : RedirectTable}

/-- Under the table that was planned, the loader leads a reference where the walk went on from it
exactly if the catalog resolves the reference or no entry leads its URL elsewhere. -/
theorem target_eq_next_iff (hthread : thread.resolution = none)
    (hplan : ((redirects catalog root).outcome.run thread).1 = .ok table)
    {move : Move E} (hmove : move ∈ history catalog root) {place : String}
    (hnext : move.next catalog = some place) {compiling : Thread E}
    (hcompiling : compiling.resolution = some (.redirects table)) (publicId : Option RawText) :
    compiling.target (some (.ofString move.url)) publicId = some (.ofString place) ↔
      (move.answer catalog).isSome ∨ table.place move.url = move.url := by
  rcases walks_of_redirects hthread hplan with ⟨hparse, rfl⟩ | ⟨document, after, hparse, hwalks, rfl⟩
  · rw [history, hparse] at hmove
    cases hmove
  · have hroot := Attempt.hasNul_of_value_parse hparse
    have hsettled := hwalks.reaches.settled move hmove
    have hurl : hasNul move.url = false := Reference.hasNul_url move.base hsettled.location
    rw [Thread.target_redirects hcompiling hurl (hwalks.hasNul_place hroot hurl), Option.some_inj,
      RawText.ofString_inj]
    cases hanswer : move.answer catalog with
    | some answer =>
        obtain ⟨entry, hentry, htarget⟩ := hsettled.entry (by rw [hanswer]; rfl)
        rw [hnext, Option.some_inj] at hentry
        rw [RedirectTable.place_of_some htarget, hentry]
        exact ⟨fun _ => Or.inl rfl, fun _ => rfl⟩
    | none =>
        rw [Move.next_of_none hanswer] at hnext
        split at hnext
        · cases hnext
        · cases hnext
          exact ⟨Or.inr, fun h => h.resolve_left Bool.false_ne_true⟩

/-- A root with imports of one URL for two namespaces. -/
def rivals : Engine :=
  .ofSheets [("root.xsd", [⟨"urn:b", "x.xsd"⟩, ⟨"urn:a", "x.xsd"⟩]), ("mapped.xsd", []),
    ("x.xsd", [])]

/-- A catalog that knows the URL for the first of the two. -/
def rivalEntries : Catalog.Entries :=
  ⟨[], [("urn:b/x.xsd", "mapped.xsd")], []⟩

theorem target_eq_next_rivals :
    (Thread.under (E := rivals) (some (.redirects [("x.xsd", "mapped.xsd")]))).target
      (some (.ofString "x.xsd")) none = some (.ofString "mapped.xsd") :=
  have hplan : ((redirects (E := rivals) rivalEntries ⟨[], "root.xsd"⟩).outcome.run
      Thread.fresh).1 = .ok [("x.xsd", "mapped.xsd")] := rfl
  have hmove : ⟨⟨[], ["root.xsd"], []⟩, "root.xsd", ⟨"urn:b", "x.xsd"⟩⟩ ∈
      history (E := rivals) rivalEntries ⟨[], "root.xsd"⟩ := List.mem_cons_self
  (target_eq_next_iff rfl hplan hmove rfl rfl none).2 (Or.inl rfl)

/-- For the second import the walk goes on at the URL, which the loader leads to the resolution of
the first. -/
theorem target_ne_next_rivals :
    ((redirects (E := rivals) rivalEntries ⟨[], "root.xsd"⟩).outcome.run Thread.fresh).1 =
        .ok [("x.xsd", "mapped.xsd")] ∧
      ¬ ∀ move ∈ history (E := rivals) rivalEntries ⟨[], "root.xsd"⟩, ∀ place,
        move.next (E := rivals) rivalEntries = some place →
          (Thread.under (E := rivals) (some (.redirects [("x.xsd", "mapped.xsd")]))).target
            (some (.ofString move.url)) none = some (.ofString place) := by
  refine ⟨rfl, fun h => ?_⟩
  have hsecond := h _ (List.mem_cons_of_mem _ List.mem_cons_self) "x.xsd" rfl
  exact absurd hsecond (by decide)

end Plan

end Schema

end Conformance
