import Conformance.Engine.Recorded
import Conformance.Engine.Thread
import Conformance.Proofs.Catalog.Resolving
import Conformance.Proofs.Text.Zero

/-!
# One load of an entity

An entity is loaded in one hop: what the resolution in force has for a URL takes its place, and the
engine opens that, whatever the resolution would have for it in turn. The public id serves to find
the entity in a catalog and is handed on as it is.

* `Engine.reply` : the answer of a catalog, with nothing asked of the key;
* `Resolution.Passable` : resolutions of which every answer can be passed on
  (`Passable.hasNul_redirect`);
* `Hop` : the lookups for a URL and what is opened, with one constructor for each resolution and
  each thing it can say. `Thread.hop_iff` : a thread does just that;
* `Thread.fetch_eq_iff` : all of a load.
-/

namespace Conformance

variable {E : Engine}

/-! ## Answers -/

namespace Engine

variable {catalog : E.LoadedCatalog} {lookup : Catalog.Lookup}

/-- What a catalog has for a lookup. -/
def reply (E : Engine) (catalog : E.LoadedCatalog) (lookup : Catalog.Lookup) : Option String :=
  (E.answer catalog lookup).map RawText.lossy

theorem ask_eq_reply (h : hasNul lookup.key = false) :
    E.ask catalog lookup = E.reply catalog lookup := by
  rw [ask, h]
  rfl

theorem hasNul_ask {target : String} (h : E.ask catalog lookup = some target) :
    hasNul target = false := by
  unfold ask at h
  split at h
  · cases h
  · obtain ⟨raw, -, rfl⟩ := Option.map_eq_some_iff.1 h
    exact raw.hasNul_lossy

end Engine

namespace Catalog

variable {answer other : Lookup → Option String} {lookups : List Lookup}

theorem search_congr (h : ∀ lookup ∈ lookups, answer lookup = other lookup) :
    search answer lookups = search other lookups := by
  induction lookups with
  | nil => rfl
  | cons lookup lookups ih =>
      rw [List.forall_mem_cons] at h
      rw [search_cons, search_cons, h.1, ih h.2]

theorem consulted_congr (h : ∀ lookup ∈ lookups, answer lookup = other lookup) :
    consulted answer lookups = consulted other lookups := by
  induction lookups with
  | nil => rfl
  | cons lookup lookups ih =>
      rw [List.forall_mem_cons] at h
      rw [consulted, consulted, h.1, ih h.2]

theorem mem_of_mem_consulted {lookup : Lookup} (h : lookup ∈ consulted answer lookups) :
    lookup ∈ lookups := by
  induction lookups with
  | nil => exact h
  | cons first lookups ih =>
      rw [consulted] at h
      rcases List.mem_cons.1 h with rfl | h
      · exact List.mem_cons_self
      · split at h
        · cases h
        · exact List.mem_cons_of_mem _ (ih h)

/-- Both texts come from the engine, so no lookup made for them has a key that cannot be passed
on. -/
theorem hasNul_uriLookups {url publicId : Option RawText} {text : String}
    (hurl : url.bind RawText.text? = some text) :
    ∀ lookup ∈ uriLookups text (publicId.bind RawText.text?), hasNul lookup.key = false := by
  obtain ⟨raw, -, htext⟩ := Option.bind_eq_some_iff.1 hurl
  have hkey : hasNul text = false := RawText.hasNul_text? htext
  intro lookup hlookup
  simp only [uriLookups, List.mem_append, Option.mem_toList, Option.map_eq_some_iff, List.mem_cons,
    List.not_mem_nil, or_false] at hlookup
  rcases hlookup with ⟨publicText, hpublic, rfl⟩ | rfl | rfl
  · obtain ⟨_, -, hpublicText⟩ := Option.bind_eq_some_iff.1 hpublic
    exact RawText.hasNul_text? hpublicText
  · exact hkey
  · exact hkey

end Catalog

namespace Resolution

variable {resolution : Resolution E}

/-- Resolutions of which every answer can be passed on. Those of a catalog always can. -/
def Passable : Resolution E → Prop
  | .redirects table => ∀ url target, table.target? url = some target → hasNul target = false
  | .catalog _ => True

theorem Passable.hasNul_redirect (h : resolution.Passable) {url answer : String}
    {publicId : Option String} (hanswer : resolution.redirect url publicId = some answer) :
    hasNul answer = false := by
  cases resolution with
  | redirects table => exact h url answer hanswer
  | catalog catalog =>
      obtain ⟨lookup, -, hlookup⟩ := List.exists_of_findSome?_eq_some hanswer
      exact Engine.hasNul_ask hlookup

end Resolution

/-! ## Hops -/

/-- The lookups made for a URL under a resolution, and the URL that is opened: the one asked for, or
what the resolution has for it. -/
inductive Hop (resolution : Option (Resolution E)) (url publicId : Option RawText) :
    List Catalog.Lookup → Option RawText → Prop
  | unread (h : url.bind RawText.text? = none) : Hop resolution url publicId [] url
  | free (h : resolution = none) : Hop resolution url publicId [] url
  | unlisted {table : RedirectTable} {text : String}
      (hresolution : resolution = some (.redirects table))
      (hurl : url.bind RawText.text? = some text) (h : table.lookup text = none) :
      Hop resolution url publicId [] url
  | listed {table : RedirectTable} {text target : String}
      (hresolution : resolution = some (.redirects table))
      (hurl : url.bind RawText.text? = some text) (h : table.lookup text = some target) :
      Hop resolution url publicId [] (some (.ofString target))
  | unanswered {catalog : E.LoadedCatalog} {text : String} {made : List Catalog.Lookup}
      (hresolution : resolution = some (.catalog catalog))
      (hurl : url.bind RawText.text? = some text)
      (h : Catalog.Locates (E.reply catalog) text (publicId.bind RawText.text?) made none) :
      Hop resolution url publicId made url
  | answered {catalog : E.LoadedCatalog} {text target : String} {made : List Catalog.Lookup}
      (hresolution : resolution = some (.catalog catalog))
      (hurl : url.bind RawText.text? = some text)
      (h : Catalog.Locates (E.reply catalog) text (publicId.bind RawText.text?) made
        (some target)) :
      Hop resolution url publicId made (some (.ofString target))

theorem exists_hop (resolution : Option (Resolution E)) (url publicId : Option RawText) :
    ∃ made target, Hop resolution url publicId made target := by
  cases hurl : url.bind RawText.text? with
  | none => exact ⟨_, _, .unread hurl⟩
  | some text =>
  match hresolution : resolution with
  | none => exact ⟨_, _, .free rfl⟩
  | some (.redirects table) =>
      cases h : table.lookup text with
      | none => exact ⟨_, _, .unlisted rfl hurl h⟩
      | some target => exact ⟨_, _, .listed rfl hurl h⟩
  | some (.catalog catalog) =>
      obtain ⟨made, found, h⟩ :=
        Catalog.exists_locates (E.reply catalog) text (publicId.bind RawText.text?)
      cases found with
      | none => exact ⟨_, _, .unanswered rfl hurl h⟩
      | some target => exact ⟨_, _, .answered rfl hurl h⟩

/-- What is put to a catalog can be, so that all of its answers count. -/
theorem Catalog.Locates.redirect {catalog : E.LoadedCatalog} {url publicId : Option RawText}
    {text : String} {made : List Lookup} {found : Option String}
    (hurl : url.bind RawText.text? = some text)
    (h : Locates (E.reply catalog) text (publicId.bind RawText.text?) made found) :
    (Resolution.catalog catalog).consulted text (publicId.bind RawText.text?) = made ∧
      (Resolution.catalog catalog).redirect text (publicId.bind RawText.text?) = found := by
  have hask : ∀ lookup ∈ uriLookups text (publicId.bind RawText.text?),
      E.ask catalog lookup = E.reply catalog lookup :=
    fun lookup hlookup => Engine.ask_eq_reply (hasNul_uriLookups hurl lookup hlookup)
  obtain ⟨hmade, hfound⟩ := h.run
  exact ⟨(consulted_congr hask).trans hmade, (search_congr hask).trans hfound⟩

namespace Thread

variable {thread : Thread E} {url publicId : Option RawText}

theorem target_of_redirect_eq_none {text : String} {resolution : Resolution E}
    (hurl : url.bind RawText.text? = some text) (hresolution : thread.resolution = some resolution)
    (h : resolution.redirect text (publicId.bind RawText.text?) = none) :
    thread.target url publicId = url := by
  unfold target
  simp only [hurl, hresolution, h]

theorem target_of_redirect_eq_some {text answer : String} {resolution : Resolution E}
    (hurl : url.bind RawText.text? = some text) (hresolution : thread.resolution = some resolution)
    (hpassable : resolution.Passable)
    (h : resolution.redirect text (publicId.bind RawText.text?) = some answer) :
    thread.target url publicId = some (.ofString answer) := by
  unfold target
  simp only [hurl, hresolution, h, hpassable.hasNul_redirect h, Bool.false_eq_true, if_false]

theorem consulted_of_resolution {text : String} {resolution : Resolution E}
    (hurl : url.bind RawText.text? = some text)
    (hresolution : thread.resolution = some resolution) :
    thread.consulted url publicId = resolution.consulted text (publicId.bind RawText.text?) := by
  unfold consulted
  simp only [hurl, hresolution]

theorem run_hop {made : List Catalog.Lookup} {target : Option RawText}
    (hpassable : ∀ resolution ∈ thread.resolution, resolution.Passable)
    (h : Hop thread.resolution url publicId made target) :
    thread.consulted url publicId = made ∧ thread.target url publicId = target := by
  cases h with
  | unread h =>
      rw [consulted, Thread.target, h]
      exact ⟨rfl, rfl⟩
  | free h =>
      rw [consulted, Thread.target, h]
      cases url.bind RawText.text? <;> exact ⟨rfl, rfl⟩
  | unlisted hresolution hurl h =>
      exact ⟨consulted_of_resolution hurl hresolution,
        target_of_redirect_eq_none hurl hresolution h⟩
  | listed hresolution hurl h =>
      exact ⟨consulted_of_resolution hurl hresolution,
        target_of_redirect_eq_some hurl hresolution (hpassable _ hresolution) h⟩
  | unanswered hresolution hurl h =>
      obtain ⟨hmade, hfound⟩ := h.redirect hurl
      exact ⟨(consulted_of_resolution hurl hresolution).trans hmade,
        target_of_redirect_eq_none hurl hresolution hfound⟩
  | answered hresolution hurl h =>
      obtain ⟨hmade, hfound⟩ := h.redirect hurl
      exact ⟨(consulted_of_resolution hurl hresolution).trans hmade,
        target_of_redirect_eq_some hurl hresolution trivial hfound⟩

theorem hop_iff {made : List Catalog.Lookup} {target : Option RawText}
    (hpassable : ∀ resolution ∈ thread.resolution, resolution.Passable) :
    Hop thread.resolution url publicId made target ↔
      thread.consulted url publicId = made ∧ thread.target url publicId = target := by
  refine ⟨run_hop hpassable, ?_⟩
  rintro ⟨rfl, rfl⟩
  obtain ⟨made, target, h⟩ := exists_hop thread.resolution url publicId
  obtain ⟨hmade, htarget⟩ := run_hop hpassable h
  rw [hmade, htarget]
  exact h

/-- A load makes the lookups of one hop and then opens what the hop leads to, once and under the
public id that it was given; it leaves the thread as it was but for these calls. Under a table the
public id has no part in it, and no answer is looked up again. -/
theorem fetch_eq_iff {thread : Thread E}
    (hpassable : ∀ resolution ∈ thread.resolution, resolution.Passable)
    (url publicId : Option RawText) (entity : Option E.Entity) (after : Thread E) :
    thread.fetch url publicId = (entity, after) ↔
      ∃ made target, Hop thread.resolution url publicId made target ∧
        entity = E.openEntity target publicId ∧
        after = thread.note
          (made.map Call.lookup ++ [.opened target publicId entity.isSome]) := by
  constructor
  · rintro ⟨⟩
    exact ⟨_, _, (hop_iff hpassable).2 ⟨rfl, rfl⟩, rfl, rfl⟩
  · rintro ⟨made, target, h, rfl, rfl⟩
    obtain ⟨rfl, rfl⟩ := (hop_iff hpassable).1 h
    rfl

/-- A thread under a table whose entries lead to each other, where one of the two URLs has an
entity. -/
def circular : Thread (Recorded.Record.engine ⟨[], [("b", ⟨.null⟩)], []⟩) :=
  ⟨none, some (.redirects [("a", "b"), ("b", "a")]), [], [], []⟩

theorem fetch_eq_iff_circular :
    circular.fetch (some (.ofString "a")) none =
      (some ⟨.null⟩, circular.note [.opened (some (.ofString "b")) none true]) := by
  have hpassable : ∀ resolution ∈ circular.resolution, resolution.Passable := by
    intro resolution h
    obtain rfl := Option.some_inj.1 (Option.mem_def.1 h)
    intro url target htarget
    obtain ⟨before, after, htable, -⟩ := List.lookup_eq_some_iff.1 htarget
    have hall : ∀ entry ∈ [("a", "b"), ("b", "a")], hasNul entry.2 = false := by decide
    exact hall (url, target) (by rw [htable]; simp)
  have hresolution : circular.resolution = some (.redirects [("a", "b"), ("b", "a")]) := rfl
  have hop : Hop circular.resolution (some (.ofString "a")) none [] (some (.ofString "b")) :=
    .listed hresolution (RawText.text?_ofString (by decide)) (by rfl)
  exact (fetch_eq_iff hpassable _ _ _ _).2 ⟨[], some (.ofString "b"), hop, by rfl, by rfl⟩

end Thread

end Conformance
