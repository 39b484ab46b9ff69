import Conformance.Text.Utf8

/-!
# Raw text

What an engine hands over as text is a run of octets that need not be well formed and that ends
at its first zero octet.
-/

namespace Conformance

/-- Text as an engine hands it over. -/
structure RawText where
  stored : Octets
deriving DecidableEq, Repr

namespace RawText

/-- The octets that count: those before the first zero. -/
def octets (raw : RawText) : Octets :=
  raw.stored.takeWhile (· ≠ 0)

/-- The raw form of a text. -/
def ofString (text : String) : RawText :=
  ⟨Utf8.encode text⟩

/-- The text, if it is well formed. -/
def text? (raw : RawText) : Option String :=
  Utf8.decode? raw.octets

/-- The text, with what is ill formed replaced. -/
def lossy (raw : RawText) : String :=
  Utf8.lossy raw.octets

end RawText

/-- Whether a text has a NUL character, which an engine would take for its end. -/
def hasNul (text : String) : Bool :=
  text.toList.contains '\x00'

namespace RawText

/-- Only the NUL character has a zero among its octets. -/
theorem ne_zero_of_mem_encodeChar {c : Char} (hc : c ≠ '\x00') :
    ∀ octet ∈ Utf8.encodeChar c, octet ≠ 0 := by
  have h0 : c.toNat ≠ 0 := fun h => hc (by rw [← Char.ofNat_toNat c, h])
  have hv : c.toNat < 0xD800 ∨ 0xDFFF < c.toNat ∧ c.toNat < 0x110000 := c.valid
  have key {n : Nat} (h : 0 < n) (h' : n < 0x100) : n.toUInt8 ≠ 0 := by
    intro e
    have := congrArg UInt8.toNat e
    rw [Utf8.toNat_toUInt8 h'] at this
    exact absurd this (by simp; omega)
  unfold Utf8.encodeChar
  generalize c.toNat = n at h0 hv
  simp only
  split
  · simpa using key (n := n) (by omega) (by omega)
  · split
    · simp only [List.mem_cons, List.not_mem_nil, or_false, forall_eq_or_imp, forall_eq]
      exact ⟨key (by omega) (by omega), key (by omega) (by omega)⟩
    · split
      · simp only [List.mem_cons, List.not_mem_nil, or_false, forall_eq_or_imp, forall_eq]
        exact ⟨key (by omega) (by omega), key (by omega) (by omega), key (by omega) (by omega)⟩
      · simp only [List.mem_cons, List.not_mem_nil, or_false, forall_eq_or_imp, forall_eq]
        exact ⟨key (by omega) (by omega), key (by omega) (by omega), key (by omega) (by omega),
          key (by omega) (by omega)⟩

/-- All octets of a text without a NUL count. -/
theorem octets_ofString {text : String} (h : hasNul text = false) :
    (ofString text).octets = Utf8.encode text := by
  have whole (octets : Octets) (hz : ∀ octet ∈ octets, octet ≠ 0) :
      octets.takeWhile (· ≠ 0) = octets := by
    induction octets with
    | nil => rfl
    | cons octet octets ih =>
      simp only [List.mem_cons, forall_eq_or_imp] at hz
      rw [List.takeWhile_cons, if_pos (by simpa using hz.1), ih hz.2]
  refine whole _ fun octet ho => ?_
  obtain ⟨c, hc, ho⟩ := List.mem_flatMap.1 ho
  refine ne_zero_of_mem_encodeChar ?_ octet ho
  rintro rfl
  simp [hasNul] at h
  exact h hc

theorem lossy_ofString {text : String} (h : hasNul text = false) : (ofString text).lossy = text := by
  rw [lossy, octets_ofString h, Utf8.lossy_encode]

theorem text?_ofString {text : String} (h : hasNul text = false) :
    (ofString text).text? = some text := by
  rw [text?, octets_ofString h, Utf8.decode?_encode]

end RawText

end Conformance
