import Conformance.Text.Hex

/-!
# Quoted text in TOML

Text stands between quotes, where a backslash escapes, or between apostrophes, where nothing does.
Three quotes or apostrophes begin text of several lines: the end of a line right after them does
not count, every other one stays as it is written, and one or two more of the marks may stand
before the last three.

A reader takes the characters after the opening mark and gives the text and what follows the
closing mark. Its fuel is at least the number of characters.
-/

namespace Conformance

namespace Toml

/-- Whether a character may stand in a line: a tab, or anything that is not a control character
of ASCII. -/
def isPlain (c : Char) : Bool :=
  c = '\t' || (0x20 ≤ c.toNat && c.toNat ≠ 0x7F)

/-- The end of a line, a line feed alone or after a carriage return, and what follows it, if one
stands here. -/
def newline? : List Char → Option (List Char × List Char)
  | '\n' :: rest => some (['\n'], rest)
  | '\r' :: '\n' :: rest => some (['\r', '\n'], rest)
  | _ => none

/-- What follows the end of a line, if one stands here. -/
def afterNewline? (cs : List Char) : Option (List Char) :=
  (newline? cs).map (·.2)

/-- Whether a character is a blank within a line. -/
def isBlankInLine (c : Char) : Bool := c = ' ' || c = '\t'

/-! ## Escapes -/

/-- The character of digits to base sixteen, if they are its number. -/
def charOfHex? (digits : List Char) : Option Char := do
  let value ← Hex.number? digits
  if value < 0xD800 ∨ 0xE000 ≤ value ∧ value < 0x110000 then return Char.ofNat value else none

/-- The character of an escape by number of exactly so many digits. -/
def readNumbered (count : Nat) (cs : List Char) : Option (Char × List Char) :=
  if (cs.take count).length = count then (charOfHex? (cs.take count)).map (·, cs.drop count)
  else none

/-- The character of an escape, without its backslash. -/
def readEscape : List Char → Option (Char × List Char)
  | '"' :: rest => some ('"', rest)
  | '\\' :: rest => some ('\\', rest)
  | 'b' :: rest => some ('\x08', rest)
  | 'e' :: rest => some ('\x1b', rest)
  | 'f' :: rest => some ('\x0c', rest)
  | 'n' :: rest => some ('\n', rest)
  | 'r' :: rest => some ('\r', rest)
  | 't' :: rest => some ('\t', rest)
  | 'x' :: rest => readNumbered 2 rest
  | 'u' :: rest => readNumbered 4 rest
  | 'U' :: rest => readNumbered 8 rest
  | _ => none

/-- What follows the blanks and ends of lines. -/
def skipLines : List Char → List Char
  | [] => []
  | c :: rest =>
    if isBlankInLine c || c = '\n' then skipLines rest
    else if c = '\r' && rest.head? = some '\n' then skipLines rest
    else c :: rest

/-! ## One line -/

/-- Text up to a quote. -/
def readBasic : Nat → List Char → Option (List Char × List Char)
  | 0, _ => none
  | _, [] => none
  | fuel + 1, c :: rest =>
    if c = '"' then some ([], rest)
    else if c = '\\' then do
      let (c, rest) ← readEscape rest
      let (body, rest) ← readBasic fuel rest
      return (c :: body, rest)
    else if isPlain c then (readBasic fuel rest).map fun (body, rest) => (c :: body, rest)
    else none

/-- Text up to an apostrophe. -/
def readLiteral : List Char → Option (List Char × List Char)
  | [] => none
  | c :: rest =>
    if c = '\'' then some ([], rest)
    else if isPlain c then (readLiteral rest).map fun (body, rest) => (c :: body, rest)
    else none

/-! ## Several lines -/

/-- The marks before the closing three, and what follows, if three to five marks stand here. -/
def readClosing (mark : Char) (cs : List Char) : Option (List Char × List Char) :=
  let marks := ((cs.take 5).takeWhile (· = mark)).length
  if marks < 3 then none else some (List.replicate (marks - 3) mark, cs.drop marks)

/-- Text up to three quotes. A backslash at the end of a line joins the next text that is not
blank. -/
def readBasicLines : Nat → List Char → Option (List Char × List Char)
  | 0, _ => none
  | _, [] => none
  | fuel + 1, c :: rest =>
    match readClosing '"' (c :: rest) with
    | some closing => some closing
    | none =>
      match newline? (c :: rest) with
      | some (ending, rest) =>
        (readBasicLines fuel rest).map fun (body, rest) => (ending ++ body, rest)
      | none =>
        if c = '\\' then
          match afterNewline? (rest.dropWhile isBlankInLine) with
          | some rest => readBasicLines fuel (skipLines rest)
          | none => do
            let (c, rest) ← readEscape rest
            let (body, rest) ← readBasicLines fuel rest
            return (c :: body, rest)
        else if isPlain c then
          (readBasicLines fuel rest).map fun (body, rest) => (c :: body, rest)
        else none

/-- Text up to three apostrophes. -/
def readLiteralLines : Nat → List Char → Option (List Char × List Char)
  | 0, _ => none
  | _, [] => none
  | fuel + 1, c :: rest =>
    match readClosing '\'' (c :: rest) with
    | some closing => some closing
    | none =>
      match newline? (c :: rest) with
      | some (ending, rest) =>
        (readLiteralLines fuel rest).map fun (body, rest) => (ending ++ body, rest)
      | none =>
        if isPlain c then
          (readLiteralLines fuel rest).map fun (body, rest) => (c :: body, rest)
        else none

/-- What follows the end of a line, or everything if there is none here. -/
def skipNewline (cs : List Char) : List Char :=
  (afterNewline? cs).getD cs

/-- Quoted text with its opening mark: the text, whether it stands in one line, and what follows
it. -/
def readQuoted (fuel : Nat) (cs : List Char) : Option (List Char × Bool × List Char) :=
  match cs with
  | '"' :: '"' :: '"' :: rest =>
    (readBasicLines fuel (skipNewline rest)).map fun (body, rest) => (body, false, rest)
  | '\'' :: '\'' :: '\'' :: rest =>
    (readLiteralLines fuel (skipNewline rest)).map fun (body, rest) => (body, false, rest)
  | '"' :: rest => (readBasic fuel rest).map fun (body, rest) => (body, true, rest)
  | '\'' :: rest => (readLiteral rest).map fun (body, rest) => (body, true, rest)
  | _ => none

end Toml

end Conformance
