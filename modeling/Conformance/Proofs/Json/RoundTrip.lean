import Conformance.Json.Printer
import Conformance.Json.Reader

/-!
# Reading what was written

A value that is written with one line for each part is read back, whatever blanks stand behind it.
A string comes back with its text, but not always with its pieces: a control character that has no
letter of its own is written by number, and a number is what is read.

* `Piece.reread`, `Json.reread` : what is read back, and `Literal.text?_reread` : its text;
* `readBody_written` : one piece, whatever follows it;
* `Json.ReadsBack` : one value, whatever follows it, with fuel for twice its characters
  (`Numberless.readsBack`);
* `read?_pretty` : a whole text.
-/

namespace Conformance

namespace Json

/-! ## Strings -/

/-- The piece that is read where a piece was written. -/
def Piece.reread : Piece → Piece
  | .char c =>
    if c.toNat < 0x20 ∧ c ∉ ['\x08', '\x0c', '\n', '\r', '\t'] then .unit c.toNat else .char c
  | .unit value => .unit (value % 0x10000)

/-- Four digits are read as the last sixteen bits of the number that they were written for. -/
theorem number?_digits (value : Nat) :
    Hex.number? [Hex.digit (value / 0x1000 % 16), Hex.digit (value / 0x100 % 16),
      Hex.digit (value / 0x10 % 16), Hex.digit (value % 16)] = some (value % 0x10000) := by
  have hdigit : ∀ n, Hex.value? (Hex.digit (n % 16)) = some (n % 16) :=
    fun n => Hex.value?_digit (n % 16) (Nat.mod_lt n (by decide))
  simp only [Hex.number?, List.foldlM_cons, List.foldlM_nil, hdigit, Option.map_some,
    Option.bind_eq_bind, Option.bind_some, Option.pure_def]
  congr 1
  omega

section

variable {tail rest : List Char} {pieces : Literal}

theorem readBody_quote (rest : List Char) : readBody ('"' :: rest) = some ([], rest) := by
  rw [readBody.eq_def]
  simp

theorem readBody_plain {c : Char} (hquote : c ≠ '"') (hbackslash : c ≠ '\\')
    (hcontrol : ¬ c.toNat < 0x20) (h : readBody tail = some (pieces, rest)) :
    readBody (c :: tail) = some (.char c :: pieces, rest) := by
  rw [readBody.eq_def]
  simp [hquote, hbackslash, hcontrol, h]

theorem readBody_letter {letter c : Char} (hletter : unescape? letter = some c)
    (hunit : letter ≠ 'u') (h : readBody tail = some (pieces, rest)) :
    readBody ('\\' :: letter :: tail) = some (.char c :: pieces, rest) := by
  rw [readBody.eq_def]
  simp [hletter, hunit, h]

theorem readBody_escapeUnit (value : Nat) (h : readBody tail = some (pieces, rest)) :
    readBody (escapeUnit value ++ tail) = some (.unit (value % 0x10000) :: pieces, rest) := by
  rw [escapeUnit, readBody.eq_def]
  simp [number?_digits, h]

theorem readBody_escapeChar (c : Char) (h : readBody tail = some (pieces, rest)) :
    readBody (escapeChar c ++ tail) = some (Piece.reread (.char c) :: pieces, rest) := by
  by_cases hletter : c ∈ ['"', '\\', '\x08', '\x0c', '\n', '\r', '\t']
  · simp only [List.mem_cons, List.not_mem_nil, or_false] at hletter
    rcases hletter with rfl | rfl | rfl | rfl | rfl | rfl | rfl <;>
      exact readBody_letter rfl (by decide) h
  · simp only [List.mem_cons, List.not_mem_nil, or_false, not_or] at hletter
    by_cases hcontrol : c.toNat < 0x20
    · have hmod : c.toNat % 0x10000 = c.toNat := Nat.mod_eq_of_lt (by omega)
      have hunit := readBody_escapeUnit c.toNat h
      simpa [escapeChar, Piece.reread, hletter, hcontrol, hmod] using hunit
    · have hplain := readBody_plain hletter.1 hletter.2.1 hcontrol h
      simpa [escapeChar, Piece.reread, hletter, hcontrol] using hplain

/-- A piece is read back, whatever follows it. -/
theorem readBody_written (piece : Piece) (h : readBody tail = some (pieces, rest)) :
    readBody (piece.written ++ tail) = some (piece.reread :: pieces, rest) := by
  cases piece with
  | char c => exact readBody_escapeChar c h
  | unit value => exact readBody_escapeUnit value h

end

theorem readBody_literal (literal : Literal) (rest : List Char) :
    readBody (literal.flatMap Piece.written ++ '"' :: rest) =
      some (literal.map Piece.reread, rest) := by
  induction literal with
  | nil => exact readBody_quote rest
  | cons piece literal ih =>
      rw [List.flatMap_cons, List.append_assoc, readBody_written piece ih, List.map_cons]

theorem Literal.written_append (literal : Literal) (rest : List Char) :
    literal.written ++ rest = '"' :: (literal.flatMap Piece.written ++ '"' :: rest) := by
  simp [written]

/-- A string of characters has its text when it is read back. -/
theorem Literal.text?_reread (text : String) :
    text? ((ofString text).map Piece.reread) = some text := by
  have hcharacters : ∀ cs : List Char,
      characters none ((cs.map Piece.char).map Piece.reread) = some cs := by
    intro cs
    induction cs with
    | nil => rfl
    | cons c cs ih =>
        rw [List.map_cons, List.map_cons, Piece.reread]
        split
        · next hcontrol =>
            have hhigh : isHighSurrogate c.toNat = false := by
              simp only [isHighSurrogate, Bool.and_eq_false_iff, decide_eq_false_iff_not]
              omega
            have hlow : isLowSurrogate c.toNat = false := by
              simp only [isLowSurrogate, Bool.and_eq_false_iff, decide_eq_false_iff_not]
              omega
            rw [characters, hhigh, hlow, if_neg (by simp), if_neg (by simp), ih, Option.map_some,
              Char.ofNat_toNat]
        · rw [characters, ih, Option.map_some]
  rw [text?, ofString, hcharacters, Option.map_some, String.ofList_toList]

/-! ## Values -/

mutual

/-- The value that is read where a value was written. -/
def reread : Json → Json
  | .null => .null
  | .bool value => .bool value
  | .number digits => .number digits
  | .string literal => .string (literal.map Piece.reread)
  | .array items => .array (rereadItems items)
  | .object members => .object (rereadMembers members)

/-- The items that are read where items were written. -/
def rereadItems : List Json → List Json
  | [] => []
  | item :: items => reread item :: rereadItems items

/-- The members that are read where members were written. -/
def rereadMembers : List (Literal × Json) → List (Literal × Json)
  | [] => []
  | (name, value) :: members =>
    (name.map Piece.reread, reread value) :: rereadMembers members

end

/-- Values without numbers. -/
inductive Numberless : Json → Prop where
  | null : Numberless .null
  | bool (value : Bool) : Numberless (.bool value)
  | string (literal : Literal) : Numberless (.string literal)
  | array {items : List Json} (h : ∀ item ∈ items, Numberless item) : Numberless (.array items)
  | object {members : List (Literal × Json)} (h : ∀ member ∈ members, Numberless member.2) :
      Numberless (.object members)

/-! ## Blanks -/

theorem skipSpaces_append (blanks : List Char) (h : ∀ c ∈ blanks, isSpace c = true)
    (cs : List Char) : skipSpaces (blanks ++ cs) = skipSpaces cs :=
  List.dropWhile_append_of_pos h

theorem isSpace_of_mem_newLine {level : Nat} : ∀ c ∈ newLine level, isSpace c = true := by
  intro c hc
  rcases List.mem_cons.1 hc with rfl | hc
  · rfl
  · rw [List.eq_of_mem_replicate hc]
    rfl

@[simp]
theorem skipSpaces_newLine (level : Nat) (cs : List Char) :
    skipSpaces (newLine level ++ cs) = skipSpaces cs :=
  skipSpaces_append _ isSpace_of_mem_newLine cs

theorem skipSpaces_of_not_isSpace {c : Char} (h : isSpace c = false) (cs : List Char) :
    skipSpaces (c :: cs) = c :: cs := by
  rw [skipSpaces, List.dropWhile_cons_of_neg (by simp [h])]

/-- Blanks before a value are passed over. -/
theorem readValue_congr (fuel : Nat) {cs cs' : List Char} (h : skipSpaces cs = skipSpaces cs') :
    readValue fuel cs = readValue fuel cs' := by
  cases fuel with
  | zero => rw [readValue, readValue]
  | succ fuel => rw [readValue, readValue, h]

theorem readItems_congr (fuel : Nat) {cs cs' : List Char} (h : skipSpaces cs = skipSpaces cs') :
    readItems fuel cs = readItems fuel cs' := by
  cases fuel with
  | zero => rw [readItems, readItems]
  | succ fuel => rw [readItems, readItems, readValue_congr fuel h]

theorem readMembers_congr (fuel : Nat) {cs cs' : List Char} (h : skipSpaces cs = skipSpaces cs') :
    readMembers fuel cs = readMembers fuel cs' := by
  cases fuel with
  | zero => rw [readMembers, readMembers]
  | succ fuel => rw [readMembers, readMembers, h]

/-! ## Values read back -/

/-- With fuel for twice its characters a value is read back, whatever follows it. -/
def ReadsBack (level : Nat) (value : Json) : Prop :=
  ∀ (fuel : Nat) (rest : List Char), 2 * (prettyChars level value).length ≤ fuel + 1 →
    readValue (fuel + 1) (prettyChars level value ++ rest) = some (reread value, rest)

/-- A value begins with a character that is no blank and does not close an array. -/
theorem Numberless.exists_prettyChars_eq {value : Json} (h : value.Numberless) (level : Nat) :
    ∃ c cs, prettyChars level value = c :: cs ∧ isSpace c = false ∧ c ≠ ']' := by
  cases h with
  | null => exact ⟨'n', _, by rw [prettyChars]; rfl, rfl, by decide⟩
  | bool value =>
      cases value with
      | true => exact ⟨'t', _, by rw [prettyChars]; rfl, rfl, by decide⟩
      | false => exact ⟨'f', _, by rw [prettyChars]; rfl, rfl, by decide⟩
  | string literal => exact ⟨'"', _, by rw [prettyChars]; rfl, rfl, by decide⟩
  | @array items h =>
      cases items with
      | nil => exact ⟨'[', _, by rw [prettyChars], rfl, by decide⟩
      | cons item items => exact ⟨'[', _, by rw [prettyChars]; rfl, rfl, by decide⟩
  | @object members h =>
      cases members with
      | nil => exact ⟨'{', _, by rw [prettyChars], rfl, by decide⟩
      | cons member members => exact ⟨'{', _, by rw [prettyChars]; rfl, rfl, by decide⟩

theorem readItems_prettyItems {level : Nat} {item : Json} {items : List Json}
    (h : ∀ value ∈ item :: items, ReadsBack (level + 1) value) (fuel : Nat) (rest : List Char)
    (hfuel : 2 * (prettyChars (level + 1) item ++ prettyItems level items).length ≤ fuel) :
    readItems fuel (prettyChars (level + 1) item ++ (prettyItems level items ++ rest)) =
      some (rereadItems (item :: items), rest) := by
  induction items generalizing item fuel with
  | nil =>
      rw [prettyItems] at hfuel ⊢
      simp only [List.length_append, List.length_singleton] at hfuel
      obtain ⟨fuel, rfl⟩ : ∃ less, fuel = less + 2 := ⟨fuel - 2, by omega⟩
      rw [readItems, h item List.mem_cons_self fuel _ (by omega)]
      simp (disch := decide) [rereadItems, skipSpaces_of_not_isSpace]
  | cons next items ih =>
      rw [prettyItems] at hfuel ⊢
      simp only [List.length_append, List.length_cons] at hfuel
      obtain ⟨fuel, rfl⟩ : ∃ less, fuel = less + 2 := ⟨fuel - 2, by omega⟩
      have hrest := ih (fun value hvalue => h value (List.mem_cons_of_mem _ hvalue)) (fuel + 1)
        (by simp only [List.length_append]; omega)
      have hskip := readItems_congr (fuel + 1) (skipSpaces_newLine (level + 1)
        (prettyChars (level + 1) next ++ (prettyItems level items ++ rest)))
      rw [readItems, h item List.mem_cons_self fuel _ (by omega)]
      simp (disch := decide) [rereadItems, skipSpaces_of_not_isSpace, hskip, hrest]

/-- A value after a colon and a blank. -/
theorem ReadsBack.spaced {level : Nat} {value : Json} (h : ReadsBack level value) {fuel : Nat}
    (rest : List Char) (hfuel : 2 * (prettyChars level value).length ≤ fuel + 1) :
    readValue (fuel + 1) (' ' :: (prettyChars level value ++ rest)) =
      some (reread value, rest) := by
  rw [← h fuel rest hfuel]
  exact readValue_congr _ (skipSpaces_append [' '] (by simp [isSpace]) _)

theorem readMembers_prettyMembers {level : Nat} (name : Literal) {value : Json}
    {members : List (Literal × Json)}
    (h : ∀ member ∈ (name, value) :: members, ReadsBack (level + 1) member.2) (fuel : Nat)
    (rest : List Char)
    (hfuel : 2 * (prettyChars (level + 1) value ++ prettyMembers level members).length ≤ fuel) :
    readMembers fuel (name.written ++ ':' :: ' ' ::
        (prettyChars (level + 1) value ++ (prettyMembers level members ++ rest))) =
      some (rereadMembers ((name, value) :: members), rest) := by
  induction members generalizing name value fuel with
  | nil =>
      have hvalue : ReadsBack (level + 1) value := h (name, value) List.mem_cons_self
      rw [prettyMembers] at hfuel ⊢
      simp only [List.length_append, List.length_singleton] at hfuel
      obtain ⟨fuel, rfl⟩ : ∃ less, fuel = less + 2 := ⟨fuel - 2, by omega⟩
      rw [readMembers]
      simp (disch := decide) [Literal.written_append, rereadMembers, readBody_literal,
        skipSpaces_of_not_isSpace, hvalue.spaced _ (by omega : _ ≤ fuel + 1)]
  | cons next members ih =>
      obtain ⟨name', value'⟩ := next
      have hvalue : ReadsBack (level + 1) value := h (name, value) List.mem_cons_self
      rw [prettyMembers] at hfuel ⊢
      simp only [List.length_append, List.length_cons] at hfuel
      obtain ⟨fuel, rfl⟩ : ∃ less, fuel = less + 2 := ⟨fuel - 2, by omega⟩
      have hrest := ih name' (fun member hmember => h member (List.mem_cons_of_mem _ hmember))
        (fuel + 1) (by simp only [List.length_append]; omega)
      have hskip := readMembers_congr (fuel + 1) (skipSpaces_newLine (level + 1)
        (name'.written ++ ':' :: ' ' ::
          (prettyChars (level + 1) value' ++ (prettyMembers level members ++ rest))))
      rw [hrest, Literal.written_append] at hskip
      rw [readMembers]
      simp (disch := decide) [Literal.written_append, rereadMembers, readBody_literal,
        skipSpaces_of_not_isSpace, hvalue.spaced _ (by omega : _ ≤ fuel + 1), hskip]

/-- Values without numbers are read back. -/
theorem Numberless.readsBack {value : Json} (h : value.Numberless) (level : Nat) :
    ReadsBack level value := by
  induction h generalizing level with
  | null =>
      intro fuel rest hfuel
      rw [prettyChars] at hfuel ⊢
      simp (disch := decide) [readValue, reread, skipSpaces_of_not_isSpace]
  | bool value =>
      intro fuel rest hfuel
      cases value with
      | true =>
          rw [prettyChars] at hfuel ⊢
          simp (disch := decide) [readValue, reread, skipSpaces_of_not_isSpace]
      | false =>
          rw [prettyChars] at hfuel ⊢
          simp (disch := decide) [readValue, reread, skipSpaces_of_not_isSpace]
  | string literal =>
      intro fuel rest hfuel
      rw [prettyChars] at hfuel ⊢
      simp (disch := decide) [readValue, reread, Literal.written_append, skipSpaces_of_not_isSpace,
        readBody_literal]
  | @array items h ih =>
      intro fuel rest hfuel
      cases items with
      | nil =>
          rw [prettyChars] at hfuel ⊢
          simp (disch := decide) [readValue, reread, rereadItems, skipSpaces_of_not_isSpace]
      | cons item items =>
          rw [prettyChars] at hfuel ⊢
          simp only [List.length_append, List.length_cons] at hfuel
          have hitems := readItems_prettyItems (fun value hvalue => ih value hvalue (level + 1))
            fuel rest (by simp only [List.length_append]; omega)
          obtain ⟨c, cs, hitem, hspace, hclose⟩ :=
            (h item List.mem_cons_self).exists_prettyChars_eq (level + 1)
          rw [hitem] at hitems ⊢
          simp only [List.cons_append] at hitems
          simp [readValue, reread, skipSpaces_of_not_isSpace (c := '[') rfl,
            skipSpaces_of_not_isSpace hspace, hclose, hitems]
  | @object members h ih =>
      intro fuel rest hfuel
      cases members with
      | nil =>
          rw [prettyChars] at hfuel ⊢
          simp (disch := decide) [readValue, reread, rereadMembers, skipSpaces_of_not_isSpace]
      | cons member members =>
          obtain ⟨name, value⟩ := member
          rw [prettyChars] at hfuel ⊢
          simp only [List.length_append, List.length_cons] at hfuel
          have hmembers := readMembers_prettyMembers name
            (fun member hmember => ih member hmember (level + 1)) fuel rest
            (by simp only [List.length_append]; omega)
          rw [Literal.written_append] at hmembers
          simp [readValue, reread, Literal.written_append,
            skipSpaces_of_not_isSpace (c := '{') rfl, skipSpaces_of_not_isSpace (c := '"') rfl,
            hmembers]

/-- A text that holds a value without numbers, and blanks behind it, is read as that value. -/
theorem read?_pretty {value : Json} (h : value.Numberless) (blanks : List Char)
    (hblanks : ∀ c ∈ blanks, isSpace c = true) :
    read? (value.pretty ++ String.ofList blanks) = some value.reread := by
  have hvalue := h.readsBack 0 (2 * (prettyChars 0 value ++ blanks).length + 1) blanks
    (by simp only [List.length_append]; omega)
  have hend : skipSpaces blanks = [] := by
    rw [← List.append_nil blanks, skipSpaces_append blanks hblanks]
    rfl
  rw [read?, pretty, String.toList_append, String.toList_ofList, String.toList_ofList, readAll?,
    hvalue]
  simp [hend]

end Json

end Conformance
