import Conformance.Proofs.Engine.Passive
import Conformance.Proofs.Text.Zero

/-!
# Places

The place of a URL is where its entity is loaded from. A table leads a URL to its entry or to the
URL itself, and that is the place of the loader, as far as texts can be passed to it
(`Thread.target_redirects`). Calls that read a document depend on the place alone.

* `RedirectTable.place` : where a table leads a URL;
* `Engine.documentAt` : the document at a place, `Attempt.value_read` : reading without a
  resolution finds it.
-/

namespace Conformance

variable {E : Engine}

/-! ## Tables -/

namespace RedirectTable

/-- Where a URL leads: to its entry, or to itself. -/
def place (table : RedirectTable) (url : String) : String :=
  (table.target? url).getD url

theorem place_of_some {table : RedirectTable} {url target : String}
    (h : table.target? url = some target) : table.place url = target := by
  rw [place, h, Option.getD_some]

theorem place_of_none {table : RedirectTable} {url : String} (h : table.target? url = none) :
    table.place url = url := by
  rw [place, h, Option.getD_none]

theorem target?_add (table : RedirectTable) (url target key : String) :
    (table.add url target).target? key =
      if key = url then some ((table.target? url).getD target) else table.target? key := by
  unfold add
  cases hurl : table.target? url with
  | some old =>
      rw [if_pos Option.isSome_some, Option.getD_some]
      split
      · next heq => rw [heq, hurl]
      · rfl
  | none =>
      rw [if_neg (by simp), Option.getD_none]
      unfold target? at hurl ⊢
      rw [List.lookup_append]
      split
      · next heq => simp [heq, hurl]
      · next hne => simp [hne]

/-- An entry that was made is not changed by another. -/
theorem target?_add_of_some {table : RedirectTable} {url target key value : String}
    (h : table.target? key = some value) : (table.add url target).target? key = some value := by
  rw [target?_add]
  split
  · next heq => rw [← heq, h, Option.getD_some]
  · exact h

end RedirectTable

/-! ## The loader -/

/-- Under a table, the loader loads a URL from where the table leads. -/
theorem Thread.target_redirects {thread : Thread E} {table : RedirectTable}
    (hthread : thread.resolution = some (.redirects table)) {url : String}
    (hurl : hasNul url = false) (hplace : hasNul (table.place url) = false)
    (publicId : Option RawText) :
    thread.target (some (.ofString url)) publicId = some (.ofString (table.place url)) := by
  simp only [target, hthread, Option.bind_some, RawText.text?_ofString hurl, Resolution.redirect]
  cases htarget : table.target? url with
  | none => rw [RedirectTable.place_of_none htarget]
  | some target =>
      rw [RedirectTable.place_of_some htarget] at hplace ⊢
      simp only [hplace, Bool.false_eq_true, if_false]

theorem Engine.find_redirects {table : RedirectTable} {url : String} (hurl : hasNul url = false)
    (hplace : hasNul (table.place url) = false) (publicId : Option RawText) :
    E.find (some (.redirects table)) (some (.ofString url)) publicId =
      E.openEntity (some (.ofString (table.place url))) publicId := by
  simp only [find, Thread.fetch]
  rw [Thread.target_redirects rfl hurl hplace]

/-! ## Documents -/

/-- The document that is parsed from the entity at a place while a resolution is in force. -/
def Engine.documentAt (E : Engine) (resolution : Option (Resolution E)) (place : String) :
    Option E.Document :=
  (E.openEntity (some (.ofString place)) none).bind fun entity =>
    (E.parseEntity entity place).value (E.find resolution)

theorem Engine.mem_library_of_documentAt {place : String} {document : E.Document}
    (hplace : hasNul place = false) (h : E.documentAt none place = some document) :
    place ∈ E.library := by
  refine E.mem_library place hplace ?_
  have hfind : E.find none = E.openEntity :=
    funext fun url => funext fun publicId => find_none url publicId
  rw [documentAt, hfind] at h
  rw [h, Option.isSome_some]

namespace Attempt

theorem value_buildUri (reference base : String) (resolution : Option (Resolution E)) :
    (buildUri reference base : Attempt E (Option String)).value resolution =
      if hasNul reference then .error (EngineError.nulInText reference).toValidation
      else if hasNul base then .error (EngineError.nulInText base).toValidation
      else .ok ((E.buildUri reference base).map RawText.lossy) := by
  rw [value, buildUri, run_bind, ensurePassable, run_ensure]
  cases hasNul reference with
  | true => rfl
  | false =>
      refine (congrArg Prod.fst (run_bind _ _ _)).trans ?_
      rw [ensurePassable, run_ensure]
      cases hasNul base <;> rfl

/-- Without a resolution, the document at a URL is read at that URL. -/
theorem value_read (url : String) :
    (read url : Attempt E (Option E.Document)).value none =
      if hasNul url then .error (EngineError.nulInText url).toValidation
      else .ok (E.documentAt none url) := by
  rw [value, read, run_bind, ensurePassable, run_ensure]
  cases hasNul url with
  | true => rfl
  | false =>
      refine (congrArg Prod.fst (run_lift _ _)).trans (congrArg Except.ok ?_)
      simp only [Session.run, Thread.fetch_fst, Thread.note, Thread.under, Engine.find_none]
      cases hentity : E.openEntity (some (.ofString url)) none with
      | none => rw [Engine.documentAt, hentity]; rfl
      | some entity =>
          rw [Engine.documentAt, hentity]
          exact Session.run_follow none _ _

theorem value_parse (octets : Octets) (url : String) (resolution : Option (Resolution E)) :
    (parse octets url : Attempt E (Option E.Document)).value resolution =
      if octets.length ≤ sizeLimit then
        if hasNul url then .error (EngineError.nulInText url).toValidation
        else .ok ((E.parse octets url).value (E.find resolution))
      else .error (EngineError.inputTooLarge octets.length).toValidation := by
  rw [value, parse, run_bind, ensureSize, run_ensure]
  by_cases hsize : octets.length ≤ sizeLimit
  · rw [if_pos hsize, if_pos (decide_eq_true hsize)]
    refine (congrArg Prod.fst (run_bind _ _ _)).trans ?_
    rw [ensurePassable, run_ensure]
    cases hasNul url with
    | true => rfl
    | false =>
        refine (congrArg Prod.fst (run_lift _ _)).trans (congrArg Except.ok ?_)
        exact Session.run_follow none _ _
  · rw [if_neg hsize, if_neg (by simpa using hsize)]

/-- What was parsed was parsed under a URL that can be passed on. -/
theorem hasNul_of_value_parse {octets : Octets} {url : String} {document : Option E.Document}
    {resolution : Option (Resolution E)}
    (h : (parse octets url : Attempt E (Option E.Document)).value resolution = .ok document) :
    hasNul url = false := by
  rw [value_parse] at h
  split at h
  · split at h
    · cases h
    · next hurl => exact Bool.eq_false_iff.2 hurl
  · cases h

end Attempt

end Conformance
