import Conformance.Catalog.Request

/-!
# What a catalog is asked

A request is a list of lookups that are made one after another until one has an answer. The two
relations below spell out, for each kind of request, which lookups these are and what comes of them.
Nothing is assumed of the answers.

* `Locates` : a resource known by its URI, with `locates_iff`;
* `Request.Resolves` : a schema asked for by a reference, with `Request.resolves_iff`;
* `Request.resolution_rule` : what follows from the latter for all schemas.
-/

namespace Conformance

namespace Catalog

variable {answer : Lookup → Option String} {made : List Lookup} {found : Option String}

theorem search_cons (answer : Lookup → Option String) (lookup : Lookup) (lookups : List Lookup) :
    search answer (lookup :: lookups) = (answer lookup).or (search answer lookups) := by
  rw [search, List.findSome?_cons]
  cases answer lookup <;> rfl

theorem consulted_of_some {lookup : Lookup} {target : String} (h : answer lookup = some target)
    (lookups : List Lookup) : consulted answer (lookup :: lookups) = [lookup] := by
  rw [consulted, h]
  rfl

theorem consulted_of_none {lookup : Lookup} (h : answer lookup = none) (lookups : List Lookup) :
    consulted answer (lookup :: lookups) = lookup :: consulted answer lookups := by
  rw [consulted, h]
  rfl

/-- After the last lookup there is nothing left to skip. -/
theorem consulted_singleton (answer : Lookup → Option String) (lookup : Lookup) :
    consulted answer [lookup] = [lookup] := by
  rw [consulted]
  cases (answer lookup).isSome <;> rfl

theorem search_singleton (answer : Lookup → Option String) (lookup : Lookup) :
    search answer [lookup] = answer lookup := by
  rw [search_cons]
  exact Option.or_none

/-! ## Resources known by their URI -/

/-- The lookups made for a URI, which may come with a public id, and what is found: the public id
is looked up first, then the URI among the URIs and last among the system ids. -/
inductive Locates (answer : Lookup → Option String) (uri : String) :
    Option String → List Lookup → Option String → Prop
  | byPublicId {publicId target : String} (h : answer ⟨.publicIds, publicId⟩ = some target) :
      Locates answer uri (some publicId) [⟨.publicIds, publicId⟩] (some target)
  | onward {publicId : String} {made : List Lookup} {found : Option String}
      (h : answer ⟨.publicIds, publicId⟩ = none) (hrest : Locates answer uri none made found) :
      Locates answer uri (some publicId) (⟨.publicIds, publicId⟩ :: made) found
  | byUri {target : String} (h : answer ⟨.uris, uri⟩ = some target) :
      Locates answer uri none [⟨.uris, uri⟩] (some target)
  | bySystemId (h : answer ⟨.uris, uri⟩ = none) :
      Locates answer uri none [⟨.uris, uri⟩, ⟨.systemIds, uri⟩] (answer ⟨.systemIds, uri⟩)

theorem Locates.run {uri : String} {publicId : Option String}
    (h : Locates answer uri publicId made found) :
    consulted answer (uriLookups uri publicId) = made ∧
      search answer (uriLookups uri publicId) = found := by
  induction h with
  | byPublicId h =>
      refine ⟨consulted_of_some h _, ?_⟩
      rw [uriLookups, Option.map_some, Option.toList_some, List.singleton_append, search_cons, h]
      rfl
  | onward h _ ih =>
      obtain ⟨hmade, hfound⟩ := ih
      refine ⟨(consulted_of_none h _).trans (congrArg _ hmade), ?_⟩
      rw [uriLookups, Option.map_some, Option.toList_some, List.singleton_append, search_cons, h]
      exact hfound
  | byUri h =>
      refine ⟨consulted_of_some h _, ?_⟩
      rw [uriLookups, Option.map_none, Option.toList_none, List.nil_append, search_cons, h]
      rfl
  | bySystemId h =>
      rw [uriLookups, Option.map_none, Option.toList_none, List.nil_append, consulted_of_none h,
        consulted_singleton, search_cons, h, search_singleton]
      exact ⟨rfl, rfl⟩

theorem exists_locates (answer : Lookup → Option String) (uri : String) (publicId : Option String) :
    ∃ made found, Locates answer uri publicId made found := by
  have hwithout : ∃ made found, Locates answer uri none made found := by
    cases h : answer ⟨.uris, uri⟩ with
    | none => exact ⟨_, _, .bySystemId h⟩
    | some target => exact ⟨_, _, .byUri h⟩
  cases publicId with
  | none => exact hwithout
  | some publicId =>
      cases h : answer ⟨.publicIds, publicId⟩ with
      | none =>
          obtain ⟨made, found, hrest⟩ := hwithout
          exact ⟨_, _, .onward h hrest⟩
      | some target => exact ⟨_, _, .byPublicId h⟩

theorem locates_iff {uri : String} {publicId : Option String} :
    Locates answer uri publicId made found ↔
      consulted answer (uriLookups uri publicId) = made ∧
        search answer (uriLookups uri publicId) = found := by
  refine ⟨Locates.run, ?_⟩
  rintro ⟨rfl, rfl⟩
  obtain ⟨made, found, h⟩ := exists_locates answer uri publicId
  obtain ⟨hmade, hfound⟩ := h.run
  rw [hmade, hfound]
  exact h

/-! ## Schemas asked for by a reference -/

/-- Whether a system id begins with one of the schemes of other hosts. -/
def Remote (systemId : String) : Prop :=
  "http://".toList <+: systemId.toList ∨ "https://".toList <+: systemId.toList

theorem isRemote_iff {systemId : String} : isRemote systemId = true ↔ Remote systemId := by
  simp only [isRemote, List.any_cons, List.any_nil, Bool.or_false, Bool.or_eq_true,
    List.isPrefixOf_iff_prefix, Remote]

namespace Request

variable {request : Request}

/-- The lookups made for a schema and what is found. -/
inductive Resolves (answer : Lookup → Option String) (request : Request) :
    List Lookup → Option String → Prop
  | byPublicId {publicId target : String} (hpublic : request.publicId = some publicId)
      (h : answer ⟨.publicIds, publicId⟩ = some target) :
      Resolves answer request [⟨.publicIds, publicId⟩] (some target)
  | bySystemId {publicId : String} (hpublic : request.publicId = some publicId)
      (h : answer ⟨.publicIds, publicId⟩ = none) :
      Resolves answer request [⟨.publicIds, publicId⟩, ⟨.systemIds, request.systemId⟩]
        (answer ⟨.systemIds, request.systemId⟩)
  | remote (hpublic : request.publicId = none) (h : Remote request.systemId) :
      Resolves answer request [⟨.systemIds, request.systemId⟩]
        (answer ⟨.systemIds, request.systemId⟩)
  | joined (hpublic : request.publicId = none) (h : ¬ Remote request.systemId) :
      Resolves answer request [⟨.systemIds, request.namespaceUri ++ "/" ++ request.systemId⟩]
        (answer ⟨.systemIds, request.namespaceUri ++ "/" ++ request.systemId⟩)

theorem effectiveSystemId_of_publicId {publicId : String} (h : request.publicId = some publicId) :
    request.effectiveSystemId = request.systemId := by
  rw [effectiveSystemId, h]
  rfl

theorem effectiveSystemId_of_remote (h : Remote request.systemId) :
    request.effectiveSystemId = request.systemId := by
  rw [effectiveSystemId, isRemote_iff.2 h, Bool.not_true, Bool.and_false]
  rfl

theorem effectiveSystemId_of_local (hpublic : request.publicId = none)
    (h : ¬ Remote request.systemId) :
    request.effectiveSystemId = request.namespaceUri ++ "/" ++ request.systemId := by
  have hlocal : isRemote request.systemId = false := by
    rw [← Bool.not_eq_true, isRemote_iff]
    exact h
  rw [effectiveSystemId, hpublic, hlocal]
  rfl

theorem lookups_of_none (h : request.publicId = none) :
    request.lookups = [⟨.systemIds, request.effectiveSystemId⟩] := by
  rw [lookups, h]
  rfl

theorem lookups_of_some {publicId : String} (h : request.publicId = some publicId) :
    request.lookups = [⟨.publicIds, publicId⟩, ⟨.systemIds, request.systemId⟩] := by
  rw [lookups, h, effectiveSystemId_of_publicId h]
  rfl

theorem Resolves.run (h : Resolves answer request made found) :
    consulted answer request.lookups = made ∧ search answer request.lookups = found := by
  cases h with
  | byPublicId hpublic h =>
      rw [lookups_of_some hpublic, consulted_of_some h, search_cons, h]
      exact ⟨rfl, rfl⟩
  | bySystemId hpublic h =>
      rw [lookups_of_some hpublic, consulted_of_none h, consulted_singleton, search_cons, h,
        search_singleton]
      exact ⟨rfl, rfl⟩
  | remote hpublic h =>
      rw [lookups_of_none hpublic, effectiveSystemId_of_remote h, consulted_singleton,
        search_singleton]
      exact ⟨rfl, rfl⟩
  | joined hpublic h =>
      rw [lookups_of_none hpublic, effectiveSystemId_of_local hpublic h, consulted_singleton,
        search_singleton]
      exact ⟨rfl, rfl⟩

theorem exists_resolves (answer : Lookup → Option String) (request : Request) :
    ∃ made found, Resolves answer request made found := by
  cases hpublic : request.publicId with
  | none =>
      by_cases h : Remote request.systemId
      · exact ⟨_, _, .remote hpublic h⟩
      · exact ⟨_, _, .joined hpublic h⟩
  | some publicId =>
      cases h : answer ⟨.publicIds, publicId⟩ with
      | none => exact ⟨_, _, .bySystemId hpublic h⟩
      | some target => exact ⟨_, _, .byPublicId hpublic h⟩

theorem resolves_iff :
    Resolves answer request made found ↔
      consulted answer request.lookups = made ∧ search answer request.lookups = found := by
  refine ⟨Resolves.run, ?_⟩
  rintro ⟨rfl, rfl⟩
  obtain ⟨made, found, h⟩ := exists_resolves answer request
  obtain ⟨hmade, hfound⟩ := h.run
  rw [hmade, hfound]
  exact h

/-! ## What follows -/

theorem Resolves.length_le (h : Resolves answer request made found) : made.length ≤ 2 := by
  cases h <;> simp only [List.length_cons, List.length_nil] <;> omega

theorem Resolves.table_ne_uris (h : Resolves answer request made found) :
    ∀ lookup ∈ made, lookup.table ≠ .uris := by
  cases h <;> simp

/-- The two names are told apart by their lengths. -/
theorem joined_ne (namespaceUri systemId : String) : namespaceUri ++ "/" ++ systemId ≠ systemId := by
  intro h
  have hlength := congrArg String.length h
  rw [String.length_append, String.length_append, show "/".length = 1 from rfl] at hlength
  omega

theorem Resolves.not_mem (hpublic : request.publicId = none) (hlocal : ¬ Remote request.systemId)
    (h : Resolves answer request made found) : ⟨.systemIds, request.systemId⟩ ∉ made := by
  cases h with
  | byPublicId hsome | bySystemId hsome => cases hpublic.symm.trans hsome
  | remote _ hremote => exact absurd hremote hlocal
  | joined =>
      rw [List.mem_singleton, Lookup.mk.injEq]
      exact fun heq => joined_ne _ _ heq.2.symm

theorem Resolves.unresolved (hpublic : request.publicId = none)
    (hlocal : ¬ Remote request.systemId)
    (honly : ∀ key, key ≠ request.systemId → answer ⟨.systemIds, key⟩ = none)
    (h : Resolves answer request made found) : found = none := by
  cases h with
  | byPublicId hsome | bySystemId hsome => cases hpublic.symm.trans hsome
  | remote _ hremote => exact absurd hremote hlocal
  | joined => exact honly _ (joined_ne _ _)

/-- Neither the kind nor the base of a request has a part in it. -/
theorem lookups_congr {other : Request} (hnamespace : other.namespaceUri = request.namespaceUri)
    (hpublic : other.publicId = request.publicId) (hsystem : other.systemId = request.systemId) :
    other.lookups = request.lookups := by
  rw [lookups, lookups, effectiveSystemId, effectiveSystemId, hnamespace, hpublic, hsystem]

/-- How a catalog resolves the request for a schema. The lookups that are made and their result are
those of `Resolves` and no others: at most two, of which none is among the URIs. They are the same
for another kind of resource and from another base. A local system id without a public id is not
looked up as it is, so an entry for it alone does not help. -/
theorem resolution_rule (answer : Lookup → Option String) (request : Request) :
    (∀ made found, consulted answer request.lookups = made ∧
        search answer request.lookups = found ↔ Resolves answer request made found) ∧
      (consulted answer request.lookups).length ≤ 2 ∧
      (∀ lookup ∈ consulted answer request.lookups, lookup.table ≠ .uris) ∧
      (∀ other : Request, other.namespaceUri = request.namespaceUri →
        other.publicId = request.publicId → other.systemId = request.systemId →
        consulted answer other.lookups = consulted answer request.lookups ∧
          search answer other.lookups = search answer request.lookups) ∧
      (request.publicId = none → ¬ Remote request.systemId →
        ⟨.systemIds, request.systemId⟩ ∉ consulted answer request.lookups ∧
          ((∀ key, key ≠ request.systemId → answer ⟨.systemIds, key⟩ = none) →
            search answer request.lookups = none)) := by
  have h : Resolves answer request _ _ := resolves_iff.2 ⟨rfl, rfl⟩
  refine ⟨fun _ _ => resolves_iff.symm, h.length_le, h.table_ne_uris, ?_, ?_⟩
  · intro other hnamespace hpublic hsystem
    rw [lookups_congr hnamespace hpublic hsystem]
    exact ⟨rfl, rfl⟩
  · exact fun hpublic hlocal => ⟨h.not_mem hpublic hlocal,
      fun honly => h.unresolved hpublic hlocal honly⟩

/-- An empty public id is one, and is looked up. -/
example : consulted (Entries.answer ⟨[], [("x.xsd", "there.xsd")], []⟩)
    (lookups ⟨.schema, "urn:n", some "", "x.xsd", none⟩) =
      [⟨.publicIds, ""⟩, ⟨.systemIds, "x.xsd"⟩] := by
  decide

end Request

end Catalog

end Conformance
