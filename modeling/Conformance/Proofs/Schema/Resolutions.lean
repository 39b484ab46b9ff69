import Conformance.Proofs.Schema.Alignment
import Conformance.Proofs.Schema.Course

/-!
# The table that a walk leaves

While a walk is on its way, the table decides where it goes, and where it goes decides what is
entered next. In the end the table can be read off the references alone, in the order in which the
walk came by them: it has the first resolution of each URL.

* `Plan.roots` : the document that the walk starts from;
* `RedirectTable.Keeps` : no entry is changed or removed, `Chain.pairwise_keeps` : from no moment of
  a walk to a later one;
* `FirstResolutions` : a table and the documents that the walk has looked at for it;
* `exists_firstResolutions` : this is what a walk without an error leaves.
-/

namespace Conformance

variable {E : Engine}

/-- A later table that has all the entries of an earlier one. -/
def RedirectTable.Keeps (table later : RedirectTable) : Prop :=
  ∀ url target, table.target? url = some target → later.target? url = some target

theorem RedirectTable.mem_keys_iff {table : RedirectTable} {url : String} :
    url ∈ table.map Prod.fst ↔ (table.target? url).isSome := by
  rw [Option.isSome_iff_ne_none, target?, ne_eq, List.lookup_eq_none_iff]
  simp

namespace Schema

namespace Plan

variable {catalog : E.LoadedCatalog} {root : Loaded}

/-- The root with its place, if it parses. -/
def roots (E : Engine) (root : Loaded) : List (E.Document × String) :=
  match (Attempt.parse root.octets root.systemId).value none with
  | .ok (some document) => [(document, root.systemId)]
  | _ => []

/-! ## Moments of a walk -/

namespace Chain

variable {plan after : Plan E} {moves : List (Move E)}

theorem keeps (h : Chain catalog plan moves after) : plan.table.Keeps after.table := by
  intro url target htarget
  rw [h.target?_eq, htarget, Option.some_or]

/-- From each moment to each later one the entries are kept. -/
theorem pairwise_keeps (h : Chain catalog plan moves after) :
    (moves.map (·.plan.table) ++ [after.table]).Pairwise RedirectTable.Keeps := by
  induction h with
  | nil htable hvisited => exact List.pairwise_singleton _ _
  | @cons plan between after move moves htable hvisited hmove hrest ih =>
      refine List.pairwise_cons.2 ⟨fun table hmem => ?_, ih⟩
      have hlater : between.table.Keeps table := by
        rcases List.mem_append.1 hmem with hmem | hmem
        · obtain ⟨later, hlater, rfl⟩ := List.mem_map.1 hmem
          obtain ⟨before, rest, rfl⟩ := List.append_of_mem hlater
          obtain ⟨_, hbefore, -⟩ := hrest.exists_split
          exact hbefore.keeps
        · exact List.mem_singleton.1 hmem ▸ hrest.keeps
      exact fun url target htarget => hlater url target (hmove.grows.table htarget)

end Chain

/-! ## First resolutions -/

/-- A table that has, for each URL, what the catalog has for the first reference to that URL in the
documents that the walk from a root looks at. -/
structure FirstResolutions (catalog : E.LoadedCatalog) (root : Loaded) (looks : List (Look E))
    (table : RedirectTable) : Prop where
  /-- The walk starts with the root and then always takes the document that was found last. -/
  order : LastFirst catalog (roots E root) looks
  /-- From each document it follows the references in document order. -/
  references : ∀ look ∈ looks,
    (Reference.ofDocument look.document).value none = .ok (look.moves.map (·.reference)) ∧
      ∀ move ∈ look.moves, move.base = look.base
  moves : looks.flatMap (·.moves) = history catalog root
  /-- It looks at the root and at the documents of all places that it goes on to. The place of the
  root is not one of these, since it is met from the start. -/
  crawled : ∀ document place,
    (∃ look ∈ looks, look.document = document ∧ look.base = place) ↔
      (document, place) ∈ roots E root ∨
        place ≠ root.systemId ∧ E.documentAt none place = some document ∧
          ∃ move ∈ history catalog root, move.next catalog = some place
  keys : ∀ url, url ∈ table.map Prod.fst ↔
    ∃ look ∈ looks, ∃ references, (Reference.ofDocument look.document).value none = .ok references ∧
      ∃ reference ∈ references, reference.url E look.base = url ∧
        (reference.answer catalog look.base).isSome
  values : ∀ url, table.target? url = firstAnswer? catalog (history catalog root) url
  /-- So it is at every moment, for the references met so far. -/
  moments : ∀ before move after, history catalog root = before ++ move :: after →
    ∀ url, move.plan.table.target? url = firstAnswer? catalog before url
  kept : ((history catalog root).map (·.plan.table) ++ [table]).Pairwise RedirectTable.Keeps

/-- The table that is planned for a root has the first resolution of each URL, and had it at every
moment of the walk. -/
theorem exists_firstResolutions {thread : Thread E} {table : RedirectTable}
    (hthread : thread.resolution = none)
    (hplan : ((redirects catalog root).outcome.run thread).1 = .ok table) :
    ∃ looks, FirstResolutions catalog root looks table := by
  rcases walks_of_redirects hthread hplan with ⟨hparse, rfl⟩ | ⟨document, _, hparse, -, -⟩
  · have hhistory : history catalog root = [] := by rw [history, hparse]
    have hroots : roots E root = [] := by rw [roots, hparse]
    refine ⟨[], ?_⟩
    constructor <;> simp [hhistory, hroots, LastFirst.nil, firstAnswer?, RedirectTable.target?]
  · obtain ⟨looks, outcome, hmoves, hproceeds, houtcome⟩ := exists_proceeds catalog hthread hparse
    rw [hplan] at houtcome
    cases outcome with
    | error error => cases houtcome
    | ok after =>
        cases houtcome
        have hroots : roots E root = (start document root.systemId).pending := by
          rw [roots, hparse]
          rfl
        obtain ⟨last, hchain, hlast⟩ := hproceeds.exists_chain
        obtain rfl := hlast after rfl
        have horder := hroots ▸ hproceeds.lastFirst
        rw [hmoves] at hchain
        refine ⟨looks, ?_⟩
        exact {
          order := horder
          references := hproceeds.references
          moves := hmoves
          crawled := fun document place => by
            rw [horder.exists_look_iff, hmoves, hchain.exists_finds_iff]
          keys := fun url => by
            rw [RedirectTable.mem_keys_iff, hchain.table_eq, isSome_firstAnswer?_iff, ← hmoves]
            exact hproceeds.exists_move_iff
              fun reference base => reference.url E base = url ∧
                (reference.answer catalog base).isSome
          values := hchain.table_eq
          moments := fun before move rest hsplit url => by
            rw [hsplit] at hchain
            obtain ⟨_, hbefore, -⟩ := hchain.exists_split
            exact hbefore.table_eq url
          kept := hchain.pairwise_keeps }

/-- A catalog that knows the URL of both rivals, for each something else. -/
def contestedEntries : Catalog.Entries :=
  ⟨[], [("urn:a/x.xsd", "other.xsd"), ("urn:b/x.xsd", "mapped.xsd")], []⟩

theorem exists_firstResolutions_contested :
    ∃ looks, FirstResolutions (E := rivals) contestedEntries ⟨[], "root.xsd"⟩ looks
      [("x.xsd", "mapped.xsd")] := by
  have hplan : ((redirects (E := rivals) contestedEntries ⟨[], "root.xsd"⟩).outcome.run
      Thread.fresh).1 = .ok [("x.xsd", "mapped.xsd")] := rfl
  exact exists_firstResolutions rfl hplan

end Plan

end Schema

end Conformance
