import Conformance.File.Path
import Conformance.Proofs.Text.Cutting
import Conformance.Proofs.Text.WellFormed

/-!
# Names of files and their extensions

The name of a file is the last part of its path, but for empty and dotted parts. Its extension is
what follows the last dot, unless the name starts with that dot. Both are octets, and an extension
that is no text cannot be named.

* `Path.segments_eq_cons_iff` : the only way to cut a path at all its slashes;
* `RawPath.HasFileName` : the name of a file, `RawPath.fileName?_eq_some_iff`;
* `RawPath.HasExtension` : its extension, `RawPath.suffix?_eq_some_iff`;
* `RawPath.Unnamed` : no extension, or one that is no text (`RawPath.extension?_eq_none_iff`).
-/

namespace Conformance

/-! ## Segments -/

namespace Path

variable {α : Type} [DecidableEq α] {slash : α}

theorem exists_segments_eq_cons (slash : α) (cs : List α) :
    ∃ first rest, segments slash cs = first :: rest := by
  cases cs with
  | nil => exact ⟨_, _, rfl⟩
  | cons c cs =>
      unfold segments
      split
      · exact ⟨_, _, rfl⟩
      · split <;> exact ⟨_, _, rfl⟩

theorem segments_of_notMem {cs : List α} (h : slash ∉ cs) : segments slash cs = [cs] := by
  induction cs with
  | nil => rfl
  | cons c cs ih =>
      obtain ⟨hc, hcs⟩ := not_or.1 (mt List.mem_cons.2 h)
      rw [segments, if_neg (Ne.symm hc), ih hcs]

theorem segments_append {first : List α} (h : slash ∉ first) (rest : List α) :
    segments slash (first ++ slash :: rest) = first :: segments slash rest := by
  induction first with
  | nil => rw [List.nil_append, segments, if_pos rfl]
  | cons c first ih =>
      obtain ⟨hc, hfirst⟩ := not_or.1 (mt List.mem_cons.2 h)
      rw [List.cons_append, segments, if_neg (Ne.symm hc), ih hfirst]

/-- A path is its segments with slashes between them, and no segment has a slash. -/
theorem eq_of_segments {cs first : List α} {rest : List (List α)}
    (h : segments slash cs = first :: rest) :
    cs = first ++ rest.flatMap (slash :: ·) ∧ ∀ segment ∈ first :: rest, slash ∉ segment := by
  induction cs generalizing first rest with
  | nil =>
      cases h
      simp
  | cons c cs ih =>
      obtain ⟨first', rest', hcs⟩ := exists_segments_eq_cons slash cs
      obtain ⟨heq, hslash⟩ := ih hcs
      rw [segments, hcs] at h
      split at h
      · next hc =>
          cases h
          exact ⟨by simp [hc, heq], List.forall_mem_cons.2 ⟨List.not_mem_nil, hslash⟩⟩
      · next hc =>
          cases h
          obtain ⟨hfirst, hrest⟩ := List.forall_mem_cons.1 hslash
          refine ⟨by rw [List.cons_append, ← heq], List.forall_mem_cons.2 ⟨?_, hrest⟩⟩
          exact fun hmem => (List.mem_cons.1 hmem).elim (Ne.symm hc) hfirst

theorem segments_eq_cons_iff {cs first : List α} {rest : List (List α)} :
    segments slash cs = first :: rest ↔
      cs = first ++ rest.flatMap (slash :: ·) ∧ ∀ segment ∈ first :: rest, slash ∉ segment := by
  refine ⟨eq_of_segments, ?_⟩
  rintro ⟨rfl, hslash⟩
  induction rest generalizing first with
  | nil => simpa using segments_of_notMem (hslash first List.mem_cons_self)
  | cons segment rest ih =>
      obtain ⟨hfirst, hrest⟩ := List.forall_mem_cons.1 hslash
      rw [List.flatMap_cons, List.cons_append, segments_append hfirst, ih hrest]

/-- A segment and those behind it, whatever comes before. -/
theorem exists_segments_iff {cs segment : List α} {rest : List (List α)} :
    (∃ before, segments slash cs = before ++ segment :: rest) ↔
      ∃ start, (start = [] ∨ start.getLast? = some slash) ∧
        cs = start ++ segment ++ rest.flatMap (slash :: ·) ∧
          ∀ part ∈ segment :: rest, slash ∉ part := by
  constructor
  · rintro ⟨before, h⟩
    cases before with
    | nil =>
        obtain ⟨heq, hslash⟩ := segments_eq_cons_iff.1 h
        exact ⟨[], .inl rfl, heq, hslash⟩
    | cons first before =>
        obtain ⟨heq, hslash⟩ := segments_eq_cons_iff.1 h
        refine ⟨first ++ before.flatMap (slash :: ·) ++ [slash], .inr List.getLast?_concat, ?_, ?_⟩
        · simpa using heq
        · exact fun part hpart => hslash part (List.mem_cons_of_mem _ (List.mem_append_right _ hpart))
  · rintro ⟨start, hstart, heq, hslash⟩
    rcases hstart with rfl | hlast
    · exact ⟨[], segments_eq_cons_iff.2 ⟨heq, hslash⟩⟩
    · obtain ⟨start, rfl⟩ := List.getLast?_eq_some_iff.1 hlast
      obtain ⟨first, before, hbefore⟩ := exists_segments_eq_cons slash start
      obtain ⟨rfl, hstart⟩ := segments_eq_cons_iff.1 hbefore
      have hsegments : segments slash cs = first :: (before ++ segment :: rest) := by
        refine segments_eq_cons_iff.2 ⟨by simp [heq], fun part hpart => ?_⟩
        rw [← List.cons_append] at hpart
        exact (List.mem_append.1 hpart).elim (hstart part) (hslash part)
      exact ⟨first :: before, hsegments⟩

end Path

namespace RawPath

/-! ## Names -/

/-- The name of the file at the end of a path. Nothing follows it but slashes and dots. -/
def HasFileName (path : RawPath) (name : Octets) : Prop :=
  ∃ (start : Octets) (idle : List Octets), (start = [] ∨ start.getLast? = some slash) ∧
    path.octets = start ++ name ++ idle.flatMap (slash :: ·) ∧
    (∀ part ∈ idle, part = [] ∨ part = [dot]) ∧
    slash ∉ name ∧ name ≠ [] ∧ name ≠ [dot] ∧ name ≠ [dot, dot]

/-- A part counts as a name if it is neither empty nor a dot. -/
theorem not_counts_iff {part : Octets} :
    (!decide (part ≠ [] ∧ part ≠ [dot])) = true ↔ part = [] ∨ part = [dot] := by
  simp

theorem fileName?_eq_some_iff {path : RawPath} {name : Octets} :
    path.fileName? = some name ↔ path.HasFileName name := by
  unfold fileName? HasFileName
  simp only [Option.filter_eq_some_iff, List.find?_eq_some_iff_append, not_counts_iff,
    decide_eq_true_eq]
  constructor
  · rintro ⟨⟨⟨hempty, hhere⟩, idle, before, hreverse, hidle⟩, hparent⟩
    have hsegments : Path.segments slash path.octets = before.reverse ++ name :: idle.reverse := by
      rw [← List.reverse_inj, hreverse]
      simp
    obtain ⟨start, hstart, heq, hslash⟩ := Path.exists_segments_iff.1 ⟨_, hsegments⟩
    refine ⟨start, idle.reverse, hstart, heq, fun part hpart => ?_, ?_, hempty, hhere, hparent⟩
    · exact hidle part (List.mem_reverse.1 hpart)
    · exact hslash name List.mem_cons_self
  · rintro ⟨start, idle, hstart, heq, hidle, hslash, hempty, hhere, hparent⟩
    have hparts : ∀ part ∈ name :: idle, slash ∉ part := by
      refine List.forall_mem_cons.2 ⟨hslash, fun part hpart => ?_⟩
      rcases hidle part hpart with rfl | rfl <;> decide
    obtain ⟨before, hsegments⟩ := Path.exists_segments_iff.2 ⟨start, hstart, heq, hparts⟩
    refine ⟨⟨⟨hempty, hhere⟩, idle.reverse, before.reverse, ?_, fun part hpart => ?_⟩, hparent⟩
    · rw [hsegments]
      simp
    · exact hidle part (List.mem_reverse.1 hpart)

/-! ## Extensions -/

/-- The extension of a path: what follows the last dot of the file name, if that is not how the name
starts. -/
def HasExtension (path : RawPath) (extension : Octets) : Prop :=
  ∃ stem, path.HasFileName (stem ++ dot :: extension) ∧ stem ≠ [] ∧ dot ∉ extension

/-- No extension of a path can be named, because there is none or because it is no text. -/
inductive Unnamed (path : RawPath) : Prop
  | none (h : ∀ extension, ¬ path.HasExtension extension)
  | notText {extension : Octets} (h : path.HasExtension extension)
      (hnone : ∀ text, extension ≠ Utf8.encode text)

theorem suffix?_eq_some_iff {path : RawPath} {extension : Octets} :
    path.suffix? = some extension ↔ path.HasExtension extension := by
  unfold suffix? HasExtension
  simp only [← fileName?_eq_some_iff]
  cases path.fileName? with
  | none => simp
  | some name =>
      simp only [Option.bind_eq_bind, Option.bind_some, Option.some.injEq]
      constructor
      · intro h
        split at h
        · next c first rest hdrop =>
            cases h
            have hcut : cutLast? dot name = some ((first :: rest).reverse,
                (name.reverse.takeWhile (· ≠ dot)).reverse) := by
              simp only [cutLast?, hdrop]
            obtain ⟨hname, hdot⟩ := cutLast?_eq_some_iff.1 hcut
            exact ⟨(first :: rest).reverse, hname, by simp, hdot⟩
        · cases h
      · rintro ⟨stem, rfl, hstem, hdot⟩
        obtain ⟨htake, hdrop⟩ := reverse_append_separator stem hdot
        obtain ⟨first, rest, hrest⟩ := List.exists_cons_of_ne_nil (mt List.reverse_eq_nil_iff.1 hstem)
        rw [htake, hdrop, hrest, List.reverse_reverse]
        rfl

theorem HasExtension.unique {path : RawPath} {extension extension' : Octets}
    (h : path.HasExtension extension) (h' : path.HasExtension extension') :
    extension = extension' := by
  rw [← suffix?_eq_some_iff] at h h'
  exact Option.some.inj (h.symm.trans h')

theorem extension?_eq_some_iff {path : RawPath} {text : String} :
    path.extension? = some text ↔ path.HasExtension (Utf8.encode text) := by
  unfold extension?
  rw [Option.bind_eq_some_iff]
  constructor
  · rintro ⟨extension, hsuffix, htext⟩
    obtain rfl := Utf8.decode?_eq_some_iff.1 htext
    exact suffix?_eq_some_iff.1 hsuffix
  · exact fun h => ⟨_, suffix?_eq_some_iff.2 h, Utf8.decode?_encode text⟩

theorem extension?_eq_none_iff {path : RawPath} : path.extension? = none ↔ path.Unnamed := by
  rw [Option.eq_none_iff_forall_ne_some]
  simp only [Ne, extension?_eq_some_iff]
  constructor
  · intro h
    by_cases hextension : ∃ extension, path.HasExtension extension
    · obtain ⟨extension, hextension⟩ := hextension
      refine .notText hextension ?_
      rintro text rfl
      exact h text hextension
    · exact .none (not_exists.1 hextension)
  · rintro (h | ⟨h, hnone⟩) text htext
    · exact h _ htext
    · exact hnone text (h.unique htext)

/-- A dot at the start is part of the name, one at the end leaves an empty extension, and an octet
that begins no character leaves an extension that is no text. -/
example :
    extension? "conf.d/.toml" = none ∧ extension? ".conf.toml/." = some "toml" ∧
      extension? "toml." = some "" ∧ suffix? ⟨[0x61, dot, 0xFF]⟩ = some [0xFF] ∧
      extension? ⟨[0x61, dot, 0xFF]⟩ = none :=
  ⟨rfl, rfl, rfl, rfl, rfl⟩

/-! ## Directories -/

end RawPath

end Conformance
