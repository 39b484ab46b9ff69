/-!
# UTF-8

Text is held as `String` and file contents as lists of octets; this module goes between the two.

* `Utf8.encode` : the octets of a text;
* `Utf8.scan` : the characters of a list of octets, with `none` for every stretch that is not
  well formed;
* `Utf8.decode?` : the text of a list of octets, if all of it is well formed;
* `Utf8.lossy` : the text of any list of octets, with U+FFFD for every ill-formed stretch.

A character of more than one octet is read by a machine with three numbers: how many octets are
owed, and the bounds of the next one. The bounds after the first octet are what keeps overlong
forms, surrogates and values above U+10FFFF out.
-/

namespace Conformance

/-- The contents of a file or a buffer. -/
abbrev Octets := List UInt8

namespace Utf8

/-! ## Writing -/

/-- The octets of one character, one to four of them. -/
def encodeChar (c : Char) : Octets :=
  let n := c.toNat
  if n < 0x80 then [n.toUInt8]
  else if n < 0x800 then [(0xC0 + n / 0x40).toUInt8, (0x80 + n % 0x40).toUInt8]
  else if n < 0x10000 then
    [(0xE0 + n / 0x1000).toUInt8, (0x80 + n / 0x40 % 0x40).toUInt8, (0x80 + n % 0x40).toUInt8]
  else
    [(0xF0 + n / 0x40000).toUInt8, (0x80 + n / 0x1000 % 0x40).toUInt8,
      (0x80 + n / 0x40 % 0x40).toUInt8, (0x80 + n % 0x40).toUInt8]

/-- The octets of a text. -/
def encode (text : String) : Octets :=
  text.toList.flatMap encodeChar

/-- A character that has begun: the octets it still owes, the bounds of the next one, and the
value read so far. -/
structure Pending where
  owed : Nat
  low : Nat
  high : Nat
  value : Nat

/-- What one octet does to the character being read. -/
inductive Step where
  | whole (c : Char)
  | more (pending : Pending)
  | refused

/-- The step of an octet that begins a character. -/
def lead (octet : UInt8) : Step :=
  let n := octet.toNat
  if n < 0x80 then .whole (Char.ofNat n)
  else if n < 0xC2 then .refused
  else if n < 0xE0 then .more ⟨1, 0x80, 0xBF, n - 0xC0⟩
  else if n < 0xF0 then
    .more ⟨2, if n = 0xE0 then 0xA0 else 0x80, if n = 0xED then 0x9F else 0xBF, n - 0xE0⟩
  else if n < 0xF5 then
    .more ⟨3, if n = 0xF0 then 0x90 else 0x80, if n = 0xF4 then 0x8F else 0xBF, n - 0xF0⟩
  else .refused

/-- The step of an octet that continues a character. -/
def Pending.step (pending : Pending) (octet : UInt8) : Step :=
  let n := octet.toNat
  if pending.low ≤ n ∧ n ≤ pending.high then
    let value := pending.value * 0x40 + n % 0x40
    if pending.owed ≤ 1 then .whole (Char.ofNat value)
    else .more ⟨pending.owed - 1, 0x80, 0xBF, value⟩
  else .refused

/-- The characters of the octets, in order, `none` standing for a stretch that begins no
character or breaks off. An octet that cannot continue a character is read again as the first
of the next one. -/
def scan : Option Pending → Octets → List (Option Char)
  | none, [] => []
  | some _, [] => [none]
  | none, octet :: rest =>
    match lead octet with
    | .whole c => some c :: scan none rest
    | .more pending => scan (some pending) rest
    | .refused => none :: scan none rest
  | some pending, octet :: rest =>
    match pending.step octet with
    | .whole c => some c :: scan none rest
    | .more pending => scan (some pending) rest
    | .refused =>
      none :: match lead octet with
        | .whole c => some c :: scan none rest
        | .more pending => scan (some pending) rest
        | .refused => none :: scan none rest

/-- The text of well-formed octets, nothing if any of them is ill formed. -/
def decode? (octets : Octets) : Option String :=
  ((scan none octets).mapM id).map String.ofList

/-- The character that stands for what could not be read. -/
def replacement : Char := '\uFFFD'

/-- The text of any octets. -/
def lossy (octets : Octets) : String :=
  String.ofList ((scan none octets).map (·.getD replacement))

/-! ## Reading what was written -/

theorem toNat_toUInt8 {n : Nat} (h : n < 0x100) : n.toUInt8.toNat = n := by
  simp [Nat.toUInt8, UInt8.toNat_ofNat', Nat.mod_eq_of_lt h]

/-- The octets of a character read back as the character, whatever follows. -/
theorem scan_encodeChar (c : Char) (rest : Octets) :
    scan none (encodeChar c ++ rest) = some c :: scan none rest := by
  have hc : Char.ofNat c.toNat = c := Char.ofNat_toNat c
  have hv : c.toNat < 0xD800 ∨ 0xDFFF < c.toNat ∧ c.toNat < 0x110000 := c.valid
  generalize hn : c.toNat = n at hc hv
  unfold encodeChar
  simp only [hn]
  split
  · next h =>
    have := toNat_toUInt8 (n := n) (by omega)
    simp [scan, lead, this, h, hc]
  · split
    · next h1 h2 =>
      have e1 := toNat_toUInt8 (n := 0xC0 + n / 0x40) (by omega)
      have e2 := toNat_toUInt8 (n := 0x80 + n % 0x40) (by omega)
      have hl : lead (0xC0 + n / 0x40).toUInt8 = .more ⟨1, 0x80, 0xBF, n / 0x40⟩ := by
        simp only [lead, e1]
        rw [if_neg (by omega), if_neg (by omega), if_pos (by omega)]
        simp
      have hs : Pending.step ⟨1, 0x80, 0xBF, n / 0x40⟩ (0x80 + n % 0x40).toUInt8 = .whole c := by
        simp only [Pending.step, e2]
        rw [if_pos (by omega), if_pos (by omega), ← hc]
        congr 2; omega
      simp only [List.cons_append, List.nil_append, scan, hl, hs]
    · split
      · next h1 h2 h3 =>
        have e1 := toNat_toUInt8 (n := 0xE0 + n / 0x1000) (by omega)
        have e2 := toNat_toUInt8 (n := 0x80 + n / 0x40 % 0x40) (by omega)
        have e3 := toNat_toUInt8 (n := 0x80 + n % 0x40) (by omega)
        have hl : lead (0xE0 + n / 0x1000).toUInt8 =
            .more ⟨2, if n / 0x1000 = 0 then 0xA0 else 0x80,
              if n / 0x1000 = 0xD then 0x9F else 0xBF, n / 0x1000⟩ := by
          simp only [lead, e1]
          rw [if_neg (by omega), if_neg (by omega), if_neg (by omega), if_pos (by omega)]
          have a : (0xE0 + n / 0x1000 = 0xE0) = (n / 0x1000 = 0) := by
            apply propext; omega
          have b : (0xE0 + n / 0x1000 = 0xED) = (n / 0x1000 = 0xD) := by
            apply propext; omega
          simp only [a, b, Nat.add_sub_cancel_left]
        have hs : Pending.step ⟨2, if n / 0x1000 = 0 then 0xA0 else 0x80,
              if n / 0x1000 = 0xD then 0x9F else 0xBF, n / 0x1000⟩ (0x80 + n / 0x40 % 0x40).toUInt8 =
            .more ⟨1, 0x80, 0xBF, n / 0x40⟩ := by
          simp only [Pending.step, e2]
          rw [if_pos (by constructor <;> split <;> omega), if_neg (by omega)]
          congr 2; omega
        have ht : Pending.step ⟨1, 0x80, 0xBF, n / 0x40⟩ (0x80 + n % 0x40).toUInt8 = .whole c := by
          simp only [Pending.step, e3]
          rw [if_pos (by omega), if_pos (by omega), ← hc]
          congr 2; omega
        simp only [List.cons_append, List.nil_append, scan, hl, hs, ht]
      · next h1 h2 h3 =>
        have e1 := toNat_toUInt8 (n := 0xF0 + n / 0x40000) (by omega)
        have e2 := toNat_toUInt8 (n := 0x80 + n / 0x1000 % 0x40) (by omega)
        have e3 := toNat_toUInt8 (n := 0x80 + n / 0x40 % 0x40) (by omega)
        have e4 := toNat_toUInt8 (n := 0x80 + n % 0x40) (by omega)
        have hl : lead (0xF0 + n / 0x40000).toUInt8 =
            .more ⟨3, if n / 0x40000 = 0 then 0x90 else 0x80,
              if n / 0x40000 = 4 then 0x8F else 0xBF, n / 0x40000⟩ := by
          simp only [lead, e1]
          rw [if_neg (by omega), if_neg (by omega), if_neg (by omega), if_neg (by omega),
            if_pos (by omega)]
          have a : (0xF0 + n / 0x40000 = 0xF0) = (n / 0x40000 = 0) := by
            apply propext; omega
          have b : (0xF0 + n / 0x40000 = 0xF4) = (n / 0x40000 = 4) := by
            apply propext; omega
          simp only [a, b, Nat.add_sub_cancel_left]
        have hs : Pending.step ⟨3, if n / 0x40000 = 0 then 0x90 else 0x80,
              if n / 0x40000 = 4 then 0x8F else 0xBF, n / 0x40000⟩ (0x80 + n / 0x1000 % 0x40).toUInt8 =
            .more ⟨2, 0x80, 0xBF, n / 0x1000⟩ := by
          simp only [Pending.step, e2]
          rw [if_pos (by constructor <;> split <;> omega), if_neg (by omega)]
          congr 2; omega
        have ht : Pending.step ⟨2, 0x80, 0xBF, n / 0x1000⟩ (0x80 + n / 0x40 % 0x40).toUInt8 =
            .more ⟨1, 0x80, 0xBF, n / 0x40⟩ := by
          simp only [Pending.step, e3]
          rw [if_pos (by omega), if_neg (by omega)]
          congr 2; omega
        have hu : Pending.step ⟨1, 0x80, 0xBF, n / 0x40⟩ (0x80 + n % 0x40).toUInt8 = .whole c := by
          simp only [Pending.step, e4]
          rw [if_pos (by omega), if_pos (by omega), ← hc]
          congr 2; omega
        simp only [List.cons_append, List.nil_append, scan, hl, hs, ht, hu]

/-- The octets of a text read back as its characters. -/
theorem scan_encode (text : String) : scan none (encode text) = text.toList.map some := by
  have h (cs : List Char) : scan none (cs.flatMap encodeChar) = cs.map some := by
    induction cs with
    | nil => rfl
    | cons c cs ih => simp [scan_encodeChar, ih]
  exact h text.toList

theorem decode?_encode (text : String) : decode? (encode text) = some text := by
  have h (cs : List Char) : (cs.map some).mapM id = some cs := by
    induction cs with
    | nil => rfl
    | cons c cs ih => simp [ih]
  simp [decode?, scan_encode, h]

theorem lossy_encode (text : String) : lossy (encode text) = text := by
  have h : (fun c : Option Char => c.getD replacement) ∘ some = id := rfl
  simp [lossy, scan_encode, h]

end Utf8

end Conformance
