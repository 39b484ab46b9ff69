import Conformance.Proofs.Text.Zero

/-!
# Well-formed octets

Octets are read as a text exactly if they are the octets that the text is written as
(`decode?_eq_some_iff`). Overlong forms, surrogates and characters that break off are therefore no
text, whatever follows them.

* `Pending.Begun` : the invariant of the machine that reads a character. Whatever character the
  octets still owed lead to, it is written as the octets read so far and those.
-/

namespace Conformance

namespace Utf8

/-- The last octets of the character of a number, so many of them. -/
def tail : Nat → Nat → Octets
  | 0, _ => []
  | count + 1, n => (0x80 + n / span count % 0x40).toUInt8 :: tail count n

theorem eq_toUInt8 {octet : UInt8} {n : Nat} (h : octet.toNat = n) : octet = n.toUInt8 := by
  subst h
  exact (UInt8.ofNat_toNat).symm

/-- Every number that can still be reached is that of a character that begins with the octets read
so far. -/
structure Pending.Begun (pending : Pending) (begun : Octets) : Prop where
  owed : 1 ≤ pending.owed
  low : 0x80 ≤ pending.low
  high : pending.high ≤ 0xBF
  written : ∀ n, (pending.value * 64 + (pending.low - 0x80)) * span (pending.owed - 1) ≤ n →
    n < (pending.value * 64 + (pending.high - 0x80) + 1) * span (pending.owed - 1) →
      encodeChar (Char.ofNat n) = begun ++ tail pending.owed n

/-- What a step leads to is written as the octets read so far, or begins with them. -/
def Step.Begun (begun : Octets) : Step → Prop
  | .whole c => encodeChar c = begun
  | .more pending => pending.Begun begun
  | .refused => True

theorem begun_lead (octet : UInt8) : (lead octet).Begun [octet] := by
  have hlt : octet.toNat < 0x100 := octet.toNat_lt
  unfold lead
  generalize hn : octet.toNat = n at hlt
  simp only
  split
  · have hvalid : n.isValidChar := Or.inl (by omega)
    rw [Step.Begun, encodeChar, toNat_ofNat hvalid, if_pos (by omega), eq_toUInt8 hn]
  split
  · trivial
  split
  · refine ⟨Nat.le_refl _, Nat.le_refl _, Nat.le_refl _, fun m hlo hhi => ?_⟩
    simp only [Nat.reduceSub, span] at hlo hhi
    have hvalid : m.isValidChar := Or.inl (by omega)
    have hfirst : 0xC0 + m / 0x40 = n := by omega
    rw [encodeChar, toNat_ofNat hvalid]
    simp only [tail, span, Nat.div_one]
    rw [if_neg (by omega), if_pos (by omega), hfirst, eq_toUInt8 hn]
    rfl
  split
  · refine ⟨by simp only; omega, by simp only; split <;> omega, by simp only; split <;> omega,
      fun m hlo hhi => ?_⟩
    simp only [Nat.reduceSub, span] at hlo hhi
    have hbounds : 0x800 ≤ m ∧ m < 0x10000 ∧ (m < 0xD800 ∨ 0xDFFF < m) ∧ 0xE0 + m / 0x1000 = n := by
      split at hlo <;> split at hhi <;> omega
    obtain ⟨hlow, hhigh, hscalar, hfirst⟩ := hbounds
    have hvalid : m.isValidChar := hscalar.imp id fun h => ⟨h, by omega⟩
    rw [encodeChar, toNat_ofNat hvalid]
    simp only [tail, span, Nat.div_one, Nat.mul_one]
    rw [if_neg (by omega), if_neg (by omega), if_pos (by omega), hfirst, eq_toUInt8 hn]
    rfl
  split
  · refine ⟨by simp only; omega, by simp only; split <;> omega, by simp only; split <;> omega,
      fun m hlo hhi => ?_⟩
    simp only [Nat.reduceSub, span] at hlo hhi
    have hbounds : 0x10000 ≤ m ∧ m < 0x110000 ∧ 0xF0 + m / 0x40000 = n := by
      split at hlo <;> split at hhi <;> omega
    obtain ⟨hlow, hhigh, hfirst⟩ := hbounds
    have hvalid : m.isValidChar := Or.inr ⟨by omega, hhigh⟩
    rw [encodeChar, toNat_ofNat hvalid]
    simp only [tail, span, Nat.div_one, Nat.mul_one, Nat.reduceMul]
    rw [if_neg (by omega), if_neg (by omega), if_neg (by omega), hfirst, eq_toUInt8 hn]
    rfl
  · trivial

/-- The octets that a character still has, the first of them apart. -/
theorem tail_of_pos {owed : Nat} (h : 1 ≤ owed) (n : Nat) :
    tail owed n = (0x80 + n / span (owed - 1) % 0x40).toUInt8 :: tail (owed - 1) n := by
  cases owed with
  | zero => exact absurd h (by omega)
  | succ owed => rfl

theorem Pending.Begun.step {pending : Pending} {begun : Octets} (h : pending.Begun begun)
    (octet : UInt8) : (pending.step octet).Begun (begun ++ [octet]) := by
  obtain ⟨howed, hlow, hhigh, hwritten⟩ := h
  unfold Pending.step
  generalize hn : octet.toNat = n
  simp only
  split
  · next hbounds =>
      have hlo : pending.value * 64 + (pending.low - 0x80) ≤ pending.value * 64 + n % 64 := by omega
      have hhi : pending.value * 64 + n % 64 + 1 ≤
          pending.value * 64 + (pending.high - 0x80) + 1 := by omega
      have hoctet : octet = (0x80 + n % 64).toUInt8 := eq_toUInt8 (by omega)
      have hmod : (pending.value * 64 + n % 64) % 64 = n % 64 := by omega
      generalize pending.value * 64 + n % 64 = value at hlo hhi hmod ⊢
      split
      · next hlast =>
          rw [Nat.sub_eq_zero_of_le hlast, span] at hwritten
          rw [Step.Begun, hwritten value (by omega) (by omega), tail_of_pos howed,
            Nat.sub_eq_zero_of_le hlast, span, Nat.div_one, hmod, hoctet]
          rfl
      · next hmore =>
          have hspan := span_pred (Nat.sub_pos_of_lt (Nat.lt_of_not_le hmore))
          refine ⟨by simp only; omega, Nat.le_refl _, Nat.le_refl _, fun m hm hm' => ?_⟩
          rw [Nat.sub_self, Nat.add_zero, Nat.mul_assoc, hspan] at hm
          have hnext : value * 64 + (0xBF - 0x80) + 1 = (value + 1) * 64 := by omega
          simp only [hnext, Nat.mul_assoc, hspan] at hm'
          -- the octet is the one that stands for the next six bits of the number
          have hdigit : m / span (pending.owed - 1) = value :=
            Nat.div_eq_of_lt_le hm hm'
          rw [hwritten m (Nat.le_trans (Nat.mul_le_mul_right _ hlo) hm)
            (Nat.lt_of_lt_of_le hm' (Nat.mul_le_mul_right _ hhi)), tail_of_pos howed, hdigit, hmod,
            ← hoctet, List.append_assoc]
          rfl
  · trivial

/-- What was read before the octets to come: nothing, or the beginning of a character. -/
def Begins (begun : Octets) : Option Pending → Prop
  | none => begun = []
  | some pending => pending.Begun begun

/-- Octets that are read as characters after a step are written as these. -/
theorem append_eq_of_step (step : Step) {begun octets : Octets} {cs : List Char}
    (h : (match step with
      | .whole c => some c :: scan none octets
      | .more pending => scan (some pending) octets
      | .refused => none :: scan none octets) = cs.map some)
    (hstep : step.Begun begun)
    (hrest : ∀ {pending : Option Pending} {begun : Octets} {cs : List Char}, Begins begun pending →
      scan pending octets = cs.map some → begun ++ octets = cs.flatMap encodeChar) :
    begun ++ octets = cs.flatMap encodeChar := by
  cases step with
  | whole c =>
      cases cs with
      | nil => cases h
      | cons c' cs =>
          obtain ⟨hc, hcs⟩ := List.cons.inj h
          cases hc
          have hnone : Begins [] none := rfl
          rw [List.flatMap_cons, ← hrest hnone hcs, hstep, List.nil_append]
  | more pending =>
      have hnext : Begins begun (some pending) := hstep
      exact hrest hnext h
  | refused => cases cs <;> cases h

theorem append_eq_of_scan {octets begun : Octets} {pending : Option Pending} {cs : List Char}
    (hbegun : Begins begun pending) (h : scan pending octets = cs.map some) :
    begun ++ octets = cs.flatMap encodeChar := by
  induction octets generalizing begun pending cs with
  | nil =>
      cases pending with
      | none =>
          cases cs with
          | nil => exact congrArg (· ++ []) hbegun
          | cons c cs => cases h
      | some pending => cases cs <;> cases h
  | cons octet octets ih =>
      cases pending with
      | none =>
          obtain rfl : begun = [] := hbegun
          have hwhole : [octet] ++ octets = cs.flatMap encodeChar :=
            append_eq_of_step (lead octet) h (begun_lead octet) ih
          exact hwhole
      | some pending =>
          have hstep := Pending.Begun.step hbegun octet
          unfold scan at h
          generalize pending.step octet = step at hstep h
          rw [← List.singleton_append, ← List.append_assoc]
          -- an octet that is refused here leaves a mark that is no character
          cases step with
          | refused => cases cs <;> cases h
          | whole c => exact append_eq_of_step (.whole c) h hstep ih
          | more next => exact append_eq_of_step (.more next) h hstep ih

theorem eq_map_some_of_mapM {cs : List (Option Char)} {result : List Char}
    (h : cs.mapM id = some result) : cs = result.map some := by
  induction cs generalizing result with
  | nil =>
      cases h
      rfl
  | cons c cs ih =>
      rw [List.mapM_cons] at h
      obtain ⟨first, hfirst, h⟩ := Option.bind_eq_some_iff.1 h
      obtain ⟨rest, hrest, h⟩ := Option.bind_eq_some_iff.1 h
      cases h
      rw [List.map_cons, ← ih hrest]
      exact congrArg (· :: cs) hfirst

/-- Octets are a text exactly if the text is written as them. -/
theorem decode?_eq_some_iff {octets : Octets} {text : String} :
    decode? octets = some text ↔ octets = encode text := by
  constructor
  · intro h
    obtain ⟨cs, hcs, rfl⟩ := Option.map_eq_some_iff.1 h
    have hnone : Begins [] none := rfl
    rw [encode, String.toList_ofList]
    exact append_eq_of_scan hnone (eq_map_some_of_mapM hcs)
  · rintro rfl
    exact decode?_encode text

end Utf8

namespace RawText

/-- Whether what an engine hands over, if anything, is the octets of a text. -/
def Holds (raw : Option RawText) (text : String) : Prop :=
  ∃ given, raw = some given ∧ given.octets = Utf8.encode text

theorem holds_iff {raw : Option RawText} {text : String} :
    Holds raw text ↔ raw.bind text? = some text := by
  rw [Option.bind_eq_some_iff]
  exact exists_congr fun given => and_congr_right fun _ => Utf8.decode?_eq_some_iff.symm

end RawText

end Conformance
