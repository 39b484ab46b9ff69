import Conformance.Text.Hex

/-!
# Quoted text in JSON

The body of a JSON string is held as it is written, one `Json.Piece` per character or numeric
escape, because a numeric escape gives a UTF-16 unit and half of a surrogate pair is no
character. What was written has a text only if every pair is complete (`Json.Literal.text?`).

* `Json.escapeChar` : the written form of a character, with as few escapes as the format allows;
* `Json.readBody` : the body up to the closing quote, and what follows it.
-/

namespace Conformance

namespace Json

/-- One character of a string, or one UTF-16 unit given by number. -/
inductive Piece where
  | char (c : Char)
  | unit (value : Nat)
deriving DecidableEq, Repr

/-- The body of a string as written. -/
abbrev Literal := List Piece

/-! ## From what is written to text -/

/-- The first of the two units of a character above U+FFFF. -/
def isHighSurrogate (unit : Nat) : Bool := 0xD800 ≤ unit && unit < 0xDC00

/-- The second of the two units of a character above U+FFFF. -/
def isLowSurrogate (unit : Nat) : Bool := 0xDC00 ≤ unit && unit < 0xE000

/-- The character of a complete pair of units. -/
def surrogatePair (high low : Nat) : Char :=
  Char.ofNat (0x10000 + (high - 0xD800) * 0x400 + (low - 0xDC00))

namespace Literal

/-- The characters of a body, where the first argument is a unit that waits for its other half;
nothing if a half stays alone. -/
def characters : Option Nat → Literal → Option (List Char)
  | none, [] => some []
  | none, .char c :: rest => (characters none rest).map (c :: ·)
  | none, .unit value :: rest =>
    if isHighSurrogate value then characters (some value) rest
    else if isLowSurrogate value then none
    else (characters none rest).map (Char.ofNat value :: ·)
  | some high, .unit value :: rest =>
    if isLowSurrogate value then (characters none rest).map (surrogatePair high value :: ·)
    else none
  | some _, _ => none

/-- The text of a body. -/
def text? (literal : Literal) : Option String :=
  (characters none literal).map String.ofList

/-- A body without numeric escapes. -/
def ofString (text : String) : Literal :=
  text.toList.map .char

/-- A body without numeric escapes reads back as its text. -/
theorem text?_ofString (text : String) : text? (ofString text) = some text := by
  have h (cs : List Char) : characters none (cs.map .char) = some cs := by
    induction cs with
    | nil => rfl
    | cons c cs ih => simp [characters, ih]
  simp [text?, ofString, h]

end Literal

/-! ## Writing -/

/-- A UTF-16 unit as a numeric escape. -/
def escapeUnit (value : Nat) : List Char :=
  ['\\', 'u', Hex.digit (value / 0x1000 % 16), Hex.digit (value / 0x100 % 16),
    Hex.digit (value / 0x10 % 16), Hex.digit (value % 16)]

/-- A character as it stands in a string. Only the quote, the backslash and the control
characters below U+0020 are escaped, by a letter where there is one. -/
def escapeChar (c : Char) : List Char :=
  if c = '"' then ['\\', '"']
  else if c = '\\' then ['\\', '\\']
  else if c = '\x08' then ['\\', 'b']
  else if c = '\x0c' then ['\\', 'f']
  else if c = '\n' then ['\\', 'n']
  else if c = '\r' then ['\\', 'r']
  else if c = '\t' then ['\\', 't']
  else if c.toNat < 0x20 then escapeUnit c.toNat
  else [c]

/-- A piece as it stands in a string. -/
def Piece.written : Piece → List Char
  | .char c => escapeChar c
  | .unit value => escapeUnit value

/-- A body between its quotes. -/
def Literal.written (literal : Literal) : List Char :=
  '"' :: literal.flatMap Piece.written ++ ['"']

/-! ## Reading -/

/-- The character that a letter stands for after a backslash. -/
def unescape? : Char → Option Char
  | '"' => some '"'
  | '\\' => some '\\'
  | '/' => some '/'
  | 'b' => some '\x08'
  | 'f' => some '\x0c'
  | 'n' => some '\n'
  | 'r' => some '\r'
  | 't' => some '\t'
  | _ => none

/-- The body up to the closing quote, and what follows the quote. -/
def readBody : List Char → Option (Literal × List Char)
  | [] => none
  | c :: rest =>
    if c = '"' then some ([], rest)
    else if c = '\\' then
      match rest with
      | [] => none
      | letter :: rest =>
        if letter = 'u' then
          match rest with
          | a :: b :: c :: d :: rest => do
            let value ← Hex.number? [a, b, c, d]
            let (pieces, rest) ← readBody rest
            return (.unit value :: pieces, rest)
          | _ => none
        else do
          let c ← unescape? letter
          let (pieces, rest) ← readBody rest
          return (.char c :: pieces, rest)
    else if c.toNat < 0x20 then none
    else do
      let (pieces, rest) ← readBody rest
      return (.char c :: pieces, rest)

end Json

end Conformance
