import Conformance.Proofs.Engine.Calls
import Mathlib.Data.List.Basic

/-!
# What an attempt asks for

Two of the calls that an attempt makes ask for something of the caller's choice: one for the
document at a URL, the other for an entry of a catalog. The engine may load whatever it wants on the
way, but without a resolution it asks for nothing in this sense.

* `Call.read?`, `Call.lookup?` : what such a call asks for, `Attempt.reads` : the URLs of an attempt;
* `Attempt.asks` : these calls of an attempt without a resolution, in order;
* `Attempt.calls_bind`, `Attempt.asks_bind` : a sequence makes the calls of its parts;
* `Attempt.AsksNothing` : the attempts that ask for nothing, closed under sequence, which are all
  calls but two (`Attempt.asks_search`, `Attempt.asks_read`).
-/

namespace Conformance

variable {E : Engine} {α β : Type} {resolution : Option (Resolution E)}

namespace Call

/-- The URL that a document is read at by a call. -/
def read? : Call → Option String
  | .read url => some url
  | _ => none

/-- The lookup that is put to a catalog by a call. -/
def lookup? : Call → Option Catalog.Lookup
  | .lookup wanted => some wanted
  | _ => none

/-- Whether a call asks for something of the caller's choice. -/
def asks (call : Call) : Bool :=
  call.read?.isSome || call.lookup?.isSome

theorem read?_of_not_asks {call : Call} (h : call.asks = false) : call.read? = none :=
  Option.isSome_eq_false_iff.1 (Bool.or_eq_false_iff.1 h).1 |> Option.isNone_iff_eq_none.1

theorem lookup?_of_not_asks {call : Call} (h : call.asks = false) : call.lookup? = none :=
  Option.isSome_eq_false_iff.1 (Bool.or_eq_false_iff.1 h).2 |> Option.isNone_iff_eq_none.1

/-- What is only picked of calls that ask for something can be picked of these alone. -/
theorem filterMap_filter_asks {γ : Type} {pick : Call → Option γ}
    (h : ∀ call, call.asks = false → pick call = none) (calls : List Call) :
    (calls.filter asks).filterMap pick = calls.filterMap pick := by
  rw [List.filterMap_filter]
  refine List.filterMap_congr fun call _ => ?_
  cases hasks : call.asks with
  | true => rfl
  | false => exact (h call hasks).symm

end Call

namespace Run

/-- Without a resolution an entity is opened without any lookup. -/
theorem asks_fetch (url publicId : Option RawText) :
    ((Thread.under (none : Option (Resolution E))).fetch url publicId).2.journal.filter Call.asks =
      [] := by
  have hconsulted : (Thread.under (none : Option (Resolution E))).consulted url publicId = [] := by
    unfold Thread.consulted
    cases url.bind RawText.text? <;> rfl
  simp only [Thread.fetch, hconsulted]
  rfl

/-- What the engine loads in the course of a call is not asked for by the caller. -/
theorem asks_calls (call : Run E.Entity α) :
    (call.calls (none : Option (Resolution E))).filter Call.asks = [] := by
  induction call with
  | done value => rfl
  | report channel notice next ih => exact ih
  | fetch url publicId next ih =>
      rw [calls, List.cons_append, List.filter_cons_of_neg (ne_true_of_eq_false rfl),
        List.filter_append, asks_fetch, List.nil_append, ih]

end Run

theorem Session.journal_search (catalog : E.LoadedCatalog) (lookups : List Catalog.Lookup)
    (thread : Thread E) :
    ((search catalog lookups).run thread).2.journal = thread.journal ++
      ((Catalog.consulted (E.ask catalog) lookups).filter fun lookup => !hasNul lookup.key).map
        Call.lookup := by
  rw [search_eq, run_noting]
  rfl

namespace Attempt

theorem calls_bind {attempt : Attempt E α} {next : α → Attempt E β} (h : attempt.Passive)
    (hnext : ∀ value, (next value).Passive) :
    (attempt >>= next).calls resolution = attempt.calls resolution ++
      match attempt.value resolution with
      | .ok value => (next value).calls resolution
      | .error _ => [] := by
  have hdoes := h.does resolution
  cases hvalue : attempt.value resolution with
  | error error =>
      rw [hvalue] at hdoes
      rw [(hdoes.bind_error next).calls_eq, List.append_nil]
  | ok value =>
      rw [hvalue] at hdoes
      exact (hdoes.bind ((hnext value).does resolution)).calls_eq

/-- Where an attempt reads documents under a resolution, in order. -/
def reads (attempt : Attempt E α) (resolution : Option (Resolution E)) : List String :=
  (attempt.calls resolution).filterMap Call.read?

/-- The calls by which an attempt asks for something without a resolution, in order. -/
def asks (attempt : Attempt E α) : List Call :=
  (attempt.calls none).filter Call.asks

theorem asks_bind {attempt : Attempt E α} {next : α → Attempt E β} (h : attempt.Passive)
    (hnext : ∀ value, (next value).Passive) :
    (attempt >>= next).asks = attempt.asks ++
      match attempt.value none with
      | .ok value => (next value).asks
      | .error _ => [] := by
  rw [asks, calls_bind h hnext, List.filter_append, asks]
  cases attempt.value none <;> rfl

/-! ## Attempts that ask for nothing -/

/-- An attempt that calls the engine but asks for nothing. -/
structure AsksNothing (attempt : Attempt E α) : Prop where
  passive : attempt.Passive
  asks : attempt.asks = []

theorem AsksNothing.bind {attempt : Attempt E α} {next : α → Attempt E β} (h : attempt.AsksNothing)
    (hnext : ∀ value, (next value).AsksNothing) : (attempt >>= next).AsksNothing where
  passive := h.passive.bind fun value => (hnext value).passive
  asks := by
    rw [asks_bind h.passive fun value => (hnext value).passive, h.asks, List.nil_append]
    cases attempt.value none with
    | error error => rfl
    | ok value => exact (hnext value).asks

/-- After a success all that is asked for is asked for by what follows. -/
theorem AsksNothing.asks_bind_of_ok {attempt : Attempt E α} {next : α → Attempt E β} {value : α}
    (h : attempt.AsksNothing) (hnext : ∀ value, (next value).Passive)
    (hvalue : attempt.value none = .ok value) : (attempt >>= next).asks = (next value).asks := by
  rw [asks_bind h.passive hnext, h.asks, hvalue, List.nil_append]

theorem asksNothing_pure (value : α) : (pure value : Attempt E α).AsksNothing :=
  ⟨passive_pure value, rfl⟩

theorem asksNothing_ensure (condition : Bool) (error : EngineError) :
    (ensure condition error : Attempt E Unit).AsksNothing :=
  ⟨passive_ensure condition error, by cases condition <;> rfl⟩

/-- A call that is followed on its way. -/
theorem asksNothing_call {call : Call} (h : call.asks = false) (run : Run E.Entity α) :
    (lift (.note call (Session.follow none run)) : Attempt E α).AsksNothing where
  passive := passive_lift (.note call (Session.passive_follow run))
  asks := by
    have hcontext : (none : Option Nat) = none ∨
        none = (Thread.under (none : Option (Resolution E))).handler := .inl rfl
    obtain ⟨after, hrun, hcalled⟩ := run_call call run hcontext
    have hjournal : after.journal = call :: run.calls none := hcalled.journal
    rw [asks, calls, hrun, hjournal, List.filter_cons_of_neg (ne_true_of_eq_false h), Run.asks_calls]

theorem asksNothing_buildUri (reference base : String) :
    (buildUri reference base : Attempt E (Option String)).AsksNothing :=
  (asksNothing_ensure _ _).bind fun _ => (asksNothing_ensure _ _).bind fun _ => asksNothing_pure _

theorem asksNothing_parse (octets : Octets) (url : String) :
    (parse octets url : Attempt E (Option E.Document)).AsksNothing :=
  (asksNothing_ensure _ _).bind fun _ => (asksNothing_ensure _ _).bind fun _ =>
    asksNothing_call rfl _

/-! ## Asking -/

/-- Of the lookups that are made, only those are put to the catalog that can be. -/
theorem asks_search (catalog : E.LoadedCatalog) (lookups : List Catalog.Lookup) :
    (lift (Session.search catalog lookups)).asks =
      ((Catalog.consulted (E.ask catalog) lookups).filter fun lookup => !hasNul lookup.key).map
        Call.lookup := by
  have hempty : (Thread.under (none : Option (Resolution E))).journal = [] := rfl
  rw [asks, calls, run_lift, Session.journal_search, hempty, List.nil_append,
    List.filter_eq_self.2]
  intro call hcall
  obtain ⟨lookup, -, rfl⟩ := List.mem_map.1 hcall
  rfl

/-- After the read itself come only calls that the engine makes on its way. -/
theorem exists_calls_read {url : String} (hurl : hasNul url = false) :
    ∃ calls, (read url : Attempt E (Option E.Document)).calls none = .read url :: calls ∧
      calls.filter Call.asks = [] := by
  have hfetch := Thread.called_fetch (E := E) ((Thread.under none).note [.read url])
    (some (.ofString url)) none
  have hopened := Run.asks_fetch (E := E) (some (.ofString url)) none
  rw [calls, read, run_bind, ensurePassable, run_ensure, hurl]
  simp only [Bool.not_false, if_true, run_lift, Session.run]
  cases (((Thread.under none).note [.read url]).fetch (some (.ofString url)) none).1 with
  | none => exact ⟨_, hfetch.journal, hopened⟩
  | some entity =>
      have hfollow := hfetch.trans
        (Session.called_follow (E.parseEntity entity url) (.inl (rfl : (none : Option Nat) = none)))
      refine ⟨((Thread.under none).fetch (some (.ofString url)) none).2.journal ++
        (E.parseEntity entity url).calls none, hfollow.journal, ?_⟩
      rw [List.filter_append, hopened, Run.asks_calls, List.append_nil]

/-- Reading a document is one read, at a URL that can be passed on, whether or not there is any
document. -/
theorem asks_read (url : String) :
    (read url : Attempt E (Option E.Document)).asks = if hasNul url then [] else [.read url] := by
  cases hurl : hasNul url with
  | true =>
      rw [asks, read, ensurePassable, hurl]
      rfl
  | false =>
      obtain ⟨calls, hcalls, hasks⟩ := exists_calls_read (E := E) hurl
      rw [asks, hcalls, List.filter_cons_of_pos rfl, hasks, if_neg Bool.false_ne_true]

end Attempt

end Conformance
