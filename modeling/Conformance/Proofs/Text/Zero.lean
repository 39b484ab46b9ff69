import Conformance.Text.Raw

/-!
# Text without NUL

What an engine hands over ends at its first zero octet, and octets other than zero are never read
as NUL: overlong forms are ill formed, and what is ill formed becomes U+FFFD. So no text that
comes from an engine has a NUL (`RawText.hasNul_lossy`).

* `Pending.Sound` : the invariant of the machine that reads a character. All that the octets still
  owed can lead to are scalar values above zero.
-/

namespace Conformance

namespace Utf8

/-- Whether a number is that of a character other than NUL. -/
def IsScalar (n : Nat) : Prop :=
  0 < n ∧ (n < 0xD800 ∨ 0xDFFF < n ∧ n < 0x110000)

theorem toNat_ofNat {n : Nat} (h : n.isValidChar) : (Char.ofNat n).toNat = n := by
  rw [Char.ofNat, dif_pos h]
  rfl

theorem ofNat_ne_nul {n : Nat} (h : IsScalar n) : Char.ofNat n ≠ '\x00' := by
  intro heq
  have hn := toNat_ofNat h.2
  rw [heq] at hn
  exact absurd h.1 (by rw [← hn]; decide)

/-- How many numbers so many more octets tell apart. -/
def span : Nat → Nat
  | 0 => 1
  | count + 1 => 64 * span count

theorem span_pred {count : Nat} (h : 0 < count) : 64 * span (count - 1) = span count := by
  cases count with
  | zero => exact absurd h (Nat.lt_irrefl 0)
  | succ count => rfl

/-- Every number that can still be reached is that of a character other than NUL. They form an
interval, since only the next octet has bounds of its own. -/
structure Pending.Sound (pending : Pending) : Prop where
  owed : 1 ≤ pending.owed
  low : 0x80 ≤ pending.low
  high : pending.high ≤ 0xBF
  scalar : ∀ n, (pending.value * 64 + (pending.low - 0x80)) * span (pending.owed - 1) ≤ n →
    n < (pending.value * 64 + (pending.high - 0x80) + 1) * span (pending.owed - 1) → IsScalar n

/-- What a step leads to is no NUL, or sound again. -/
def Step.Sound : Step → Prop
  | .whole c => c ≠ '\x00'
  | .more pending => pending.Sound
  | .refused => True

theorem sound_lead {octet : UInt8} (h : octet ≠ 0) : (lead octet).Sound := by
  have hpos : 0 < octet.toNat := by
    rcases Nat.eq_zero_or_pos octet.toNat with hzero | hpos
    · exact absurd (UInt8.toNat_inj.1 hzero) h
    · exact hpos
  have hlt : octet.toNat < 0x100 := octet.toNat_lt
  unfold lead
  generalize octet.toNat = n at hpos hlt
  simp only
  split
  · exact ofNat_ne_nul ⟨hpos, Or.inl (by omega)⟩
  split
  · trivial
  split
  · refine ⟨Nat.le_refl _, Nat.le_refl _, Nat.le_refl _, fun m hlo hhi => ?_⟩
    simp only [Nat.reduceSub, span] at hlo hhi
    exact ⟨by omega, Or.inl (by omega)⟩
  split
  · refine ⟨by simp only; omega, by simp only; split <;> omega, by simp only; split <;> omega,
      fun m hlo hhi => ?_⟩
    simp only [Nat.reduceSub, span] at hlo hhi
    unfold IsScalar
    split at hlo <;> split at hhi <;> omega
  split
  · refine ⟨by simp only; omega, by simp only; split <;> omega, by simp only; split <;> omega,
      fun m hlo hhi => ?_⟩
    simp only [Nat.reduceSub, span] at hlo hhi
    unfold IsScalar
    split at hlo <;> split at hhi <;> omega
  · trivial

theorem Pending.Sound.step {pending : Pending} (h : pending.Sound) (octet : UInt8) :
    (pending.step octet).Sound := by
  obtain ⟨howed, hlow, hhigh, hscalar⟩ := h
  unfold Pending.step
  generalize octet.toNat = n
  simp only
  split
  · next hbounds =>
      have hlo : pending.value * 64 + (pending.low - 0x80) ≤ pending.value * 64 + n % 64 := by omega
      have hhi : pending.value * 64 + n % 64 + 1 ≤
          pending.value * 64 + (pending.high - 0x80) + 1 := by omega
      generalize pending.value * 64 + n % 64 = value at hlo hhi ⊢
      split
      · next hlast =>
          rw [Nat.sub_eq_zero_of_le hlast, span] at hscalar
          exact ofNat_ne_nul (hscalar value (by omega) (by omega))
      · next hmore =>
          have hspan := span_pred (Nat.sub_pos_of_lt (Nat.lt_of_not_le hmore))
          refine ⟨by simp only; omega, Nat.le_refl _, Nat.le_refl _,
            fun m hm hm' => hscalar m ?_ ?_⟩
          · rw [Nat.sub_self, Nat.add_zero, Nat.mul_assoc, hspan] at hm
            exact Nat.le_trans (Nat.mul_le_mul_right _ hlo) hm
          · have hnext : value * 64 + (0xBF - 0x80) + 1 = (value + 1) * 64 := by omega
            simp only [hnext, Nat.mul_assoc, hspan] at hm'
            exact Nat.lt_of_lt_of_le hm' (Nat.mul_le_mul_right _ hhi)
  · trivial

/-- What is read after a sound step has no NUL if the rest has none. -/
theorem ne_nul_of_step {step : Step} {octets : Octets} (h : step.Sound)
    (hrest : ∀ pending, (∀ p, pending = some p → p.Sound) → some '\x00' ∉ scan pending octets) :
    some '\x00' ∉ (match step with
      | .whole c => some c :: scan none octets
      | .more pending => scan (some pending) octets
      | .refused => none :: scan none octets) := by
  have hnone : some '\x00' ∉ scan none octets := hrest none (by simp)
  cases step with
  | whole c =>
      rw [List.mem_cons, Option.some_inj]
      exact not_or.2 ⟨Ne.symm h, hnone⟩
  | more pending => exact hrest (some pending) fun p hp => Option.some_inj.1 hp ▸ h
  | refused =>
      rw [List.mem_cons]
      exact not_or.2 ⟨Option.some_ne_none _, hnone⟩

theorem scan_ne_nul {octets : Octets} (h : ∀ octet ∈ octets, octet ≠ 0) (pending : Option Pending)
    (hpending : ∀ p, pending = some p → p.Sound) : some '\x00' ∉ scan pending octets := by
  induction octets generalizing pending with
  | nil => cases pending <;> simp [scan]
  | cons octet octets ih =>
      rw [List.forall_mem_cons] at h
      have hlead := ne_nul_of_step (sound_lead h.1) (ih h.2)
      cases pending with
      | none => exact hlead
      | some pending =>
          have hstep := (hpending pending rfl).step octet
          have hcontinued := ne_nul_of_step hstep (ih h.2)
          unfold scan
          -- an octet that cannot continue the character is read again as a first one
          cases hs : pending.step octet with
          | whole c =>
              rw [hs] at hcontinued
              exact hcontinued
          | more pending =>
              rw [hs] at hcontinued
              exact hcontinued
          | refused =>
              simp only
              rw [List.mem_cons]
              exact not_or.2 ⟨Option.some_ne_none _, hlead⟩

end Utf8

theorem hasNul_append (text rest : String) :
    hasNul (text ++ rest) = (hasNul text || hasNul rest) := by
  simp only [hasNul, String.toList_append, List.contains_eq_any_beq, List.any_append]

namespace RawText

theorem hasNul_lossy (raw : RawText) : hasNul raw.lossy = false := by
  have hnonzero : ∀ octet ∈ raw.octets, octet ≠ 0 := by
    have hall : raw.octets.all (· ≠ 0) = true := List.all_takeWhile
    simpa only [List.all_eq_true, decide_eq_true_eq] using hall
  have hscan := Utf8.scan_ne_nul hnonzero none (by simp)
  rw [hasNul, List.contains_eq_mem, decide_eq_false_iff_not, lossy, Utf8.lossy, String.toList_ofList,
    List.mem_map]
  rintro ⟨read, hread, heq⟩
  cases read with
  | none => exact absurd heq (by decide)
  | some c =>
      rw [Option.getD_some] at heq
      exact hscan (heq ▸ hread)

/-- What is well formed is read without any replacement. -/
theorem lossy_of_text? {raw : RawText} {text : String} (h : raw.text? = some text) :
    raw.lossy = text := by
  obtain ⟨read, hread, rfl⟩ := Option.map_eq_some_iff.1 h
  have hscan (items : List (Option Char)) (cs : List Char) (hitems : items.mapM id = some cs) :
      items.map (·.getD Utf8.replacement) = cs := by
    induction items generalizing cs with
    | nil => exact Option.some_inj.1 hitems
    | cons item items ih =>
        simp only [List.mapM_cons, Option.bind_eq_bind, Option.bind_eq_some_iff,
          Option.pure_def, Option.some_inj, id_eq] at hitems
        obtain ⟨c, rfl, cs, hcs, rfl⟩ := hitems
        rw [List.map_cons, ih cs hcs, Option.getD_some]
  rw [lossy, Utf8.lossy, hscan _ _ hread]

theorem hasNul_text? {raw : RawText} {text : String} (h : raw.text? = some text) :
    hasNul text = false :=
  lossy_of_text? h ▸ hasNul_lossy raw

/-- Texts with one raw form are one text. -/
theorem ofString_inj {text text' : String} : ofString text = ofString text' ↔ text = text' := by
  refine ⟨fun h => ?_, congrArg ofString⟩
  have hdecode := congrArg (fun raw => Utf8.decode? raw.stored) h
  simp only [ofString, Utf8.decode?_encode] at hdecode
  exact Option.some_inj.1 hdecode

end RawText

end Conformance
