import Conformance.Toml.Quoted

/-!
# TOML tokens

A document is a list of tokens: marks, blanks within a line, ends of lines, quoted text, and runs
of anything else. Comments are no tokens; the end of the line after one is. `Token.ofChars?` gives
the tokens of some characters, unless quoted text or a comment is not as it should be or a
carriage return stands without its line feed.
-/

namespace Conformance

namespace Toml

/-- A token of a document. -/
inductive Token where
  | dot
  | equals
  | comma
  | openBracket
  | closeBracket
  | openBrace
  | closeBrace
  | blanks (chars : List Char)
  | newline
  /-- Quoted text, and whether it stands in one line. -/
  | quoted (body : String) (inLine : Bool)
  /-- Characters without quotes. -/
  | bare (chars : List Char)
deriving DecidableEq, Repr

namespace Token

/-- The token of a mark. -/
def ofMark? : Char → Option Token
  | '.' => some .dot
  | '=' => some .equals
  | ',' => some .comma
  | '[' => some .openBracket
  | ']' => some .closeBracket
  | '{' => some .openBrace
  | '}' => some .closeBrace
  | _ => none

/-- Whether a run of characters without quotes goes on with a character. A quote inside such a run
is one of its characters. -/
def isBare (c : Char) : Bool :=
  (ofMark? c).isNone && !isBlankInLine c && c ≠ '#' && c ≠ '\r' && c ≠ '\n'

/-- Whether a token is blanks. -/
def isBlanks : Token → Bool
  | .blanks _ => true
  | _ => false

/-- Whether a token is blanks or the end of a line. -/
def isSpace : Token → Bool
  | .blanks _ | .newline => true
  | _ => false

/-- The tokens of some characters. Each token takes one character or more, so their number is
enough fuel. -/
def read : Nat → List Char → Option (List Token)
  | _, [] => some []
  | 0, _ => none
  | fuel + 1, c :: rest =>
    match ofMark? c, newline? (c :: rest) with
    | some mark, _ => (read fuel rest).map (mark :: ·)
    | none, some (_, rest) => (read fuel rest).map (.newline :: ·)
    | none, none =>
      if isBlankInLine c then
        (read fuel (rest.dropWhile isBlankInLine)).map
          (.blanks (c :: rest.takeWhile isBlankInLine) :: ·)
      else if c = '#' then
        let rest := rest.dropWhile isPlain
        if rest.isEmpty ∨ (newline? rest).isSome then read fuel rest else none
      else if c = '"' ∨ c = '\'' then do
        let (body, inLine, rest) ← readQuoted fuel (c :: rest)
        let tokens ← read fuel rest
        return .quoted (String.ofList body) inLine :: tokens
      else if isBare c then
        (read fuel (rest.dropWhile isBare)).map (.bare (c :: rest.takeWhile isBare) :: ·)
      else none

/-- The tokens of some characters. -/
def ofChars? (cs : List Char) : Option (List Token) :=
  read cs.length cs

end Token

end Toml

end Conformance
