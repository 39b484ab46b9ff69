import Conformance.Toml.Scalar
import Conformance.Toml.Table
import Conformance.Toml.Token

/-!
# Reading TOML

A document is a list of statements, one a line, with blank lines and comments between them.
Between brackets and between braces lines do not matter, and a comma may stand before the closing
mark. Arrays and tables between braces are nested at most 80 deep, and a key has at most 80 parts.
A byte order mark may stand before everything.

A reader of a part takes the tokens and gives the part with what follows it. Fuel is what keeps
the readers of nested parts total: between two calls that take no token stands one that does, and
twice the number of tokens is therefore enough.
-/

namespace Conformance

namespace Toml

/-- How deep arrays and tables between braces may be nested, and how many parts a key may have. -/
def depthLimit : Nat := 80

/-! ## Between the parts -/

/-- What follows the blanks of a line. -/
def skipBlanks (tokens : List Token) : List Token :=
  tokens.dropWhile Token.isBlanks

/-- What follows blanks and ends of lines. -/
def skipSpace (tokens : List Token) : List Token :=
  tokens.dropWhile Token.isSpace

/-- What follows the rest of a line on which nothing more stands. -/
def endLine (tokens : List Token) : Option (List Token) :=
  match skipBlanks tokens with
  | [] => some []
  | .newline :: rest => some rest
  | _ => none

/-! ## Keys -/

/-- Whether a character can stand in a key without quotes. -/
def isKeyChar (c : Char) : Bool := c.isAlphanum || c = '_' || c = '-'

/-- One part of a key. -/
def part? : Token → Option String
  | .quoted body true => some body
  | .bare chars => if chars.all isKeyChar then some (String.ofList chars) else none
  | _ => none

/-- The key of parts with dots between them. -/
def keyOf? : List Token → Option Key
  | [token] => (part? token).map (⟨[], ·⟩)
  | token :: .dot :: rest => do
    let part ← part? token
    let key ← keyOf? rest
    return ⟨part :: key.path, key.last⟩
  | _ => none

/-- Whether a token can belong to a key, or to the blanks in it and around it. -/
def isInKey : Token → Bool
  | .dot | .blanks _ | .quoted _ _ | .bare _ => true
  | _ => false

/-- A key, the blanks around it included. -/
def readKey (tokens : List Token) : Option (Key × List Token) := do
  let key ← keyOf? ((tokens.takeWhile isInKey).filter fun token => !token.isBlanks)
  if key.path.length < depthLimit then return (key, tokens.dropWhile isInKey) else none

/-! ## Values -/

/-- The characters of an unquoted value after its first token. Blanks belong to it where more of
it follows in the line. -/
def readBare : List Token → List Char × List Token
  | .bare chars :: rest =>
    let (more, rest) := readBare rest
    (chars ++ more, rest)
  | .dot :: rest =>
    let (more, rest) := readBare rest
    ('.' :: more, rest)
  | .blanks gap :: .bare chars :: rest =>
    let (more, rest) := readBare rest
    (gap ++ chars ++ more, rest)
  | tokens => ([], tokens)

mutual

/-- A value, nested at most so deep. -/
def readValue (depth : Nat) : Nat → List Token → Option (Toml × List Token)
  | 0, _ => none
  | fuel + 1, tokens =>
    match tokens with
    | .quoted body _ :: rest => some (.text body, rest)
    | .bare chars :: rest =>
      let (more, rest) := readBare rest
      (scalar? (chars ++ more)).map (·, rest)
    | .openBracket :: rest =>
      if depth = 0 then none
      else do
        let (items, rest) ← readItems (depth - 1) fuel rest
        return (.array items false, rest)
    | .openBrace :: rest =>
      if depth = 0 then none
      else do
        let (entries, rest) ← readEntries (depth - 1) fuel rest
        return (← ofBraces? entries, rest)
    | _ => none

/-- The items of an array, and the closing bracket. -/
def readItems (depth : Nat) : Nat → List Token → Option (List Toml × List Token)
  | 0, _ => none
  | fuel + 1, tokens =>
    match skipSpace tokens with
    | .closeBracket :: rest => some ([], rest)
    | tokens => do
      let (item, tokens) ← readValue depth fuel tokens
      match skipSpace tokens with
      | .comma :: rest =>
        let (items, rest) ← readItems depth fuel rest
        return (item :: items, rest)
      | .closeBracket :: rest => return ([item], rest)
      | _ => none

/-- The entries of a table between braces, and the closing brace. -/
def readEntries (depth : Nat) : Nat → List Token → Option (List (Key × Toml) × List Token)
  | 0, _ => none
  | fuel + 1, tokens =>
    match skipSpace tokens with
    | .closeBrace :: rest => some ([], rest)
    | tokens => do
      let (key, tokens) ← readKey tokens
      match skipSpace tokens with
      | .equals :: rest =>
        let (value, tokens) ← readValue depth fuel (skipSpace rest)
        match skipSpace tokens with
        | .comma :: rest =>
          let (entries, rest) ← readEntries depth fuel rest
          return ((key, value) :: entries, rest)
        | .closeBrace :: rest => return ([(key, value)], rest)
        | _ => none
      | _ => none

end

/-! ## Statements -/

/-- A statement, and what follows its line. -/
def readStatement (fuel : Nat) (tokens : List Token) : Option (Statement × List Token) :=
  match tokens with
  | .openBracket :: .openBracket :: rest => do
    match ← readKey rest with
    | (key, .closeBracket :: .closeBracket :: rest) => return (.itemHeader key, ← endLine rest)
    | _ => none
  | .openBracket :: rest => do
    match ← readKey rest with
    | (key, .closeBracket :: rest) => return (.header key, ← endLine rest)
    | _ => none
  | _ => do
    match ← readKey tokens with
    | (key, .equals :: rest) =>
      let (value, rest) ← readValue depthLimit fuel (skipBlanks rest)
      return (.entry key value, ← endLine rest)
    | _ => none

/-- The statements of a document. -/
def readStatements : Nat → List Token → Option (List Statement)
  | 0, _ => none
  | fuel + 1, tokens =>
    match skipSpace tokens with
    | [] => some []
    | tokens => do
      let (statement, tokens) ← readStatement fuel tokens
      let statements ← readStatements fuel tokens
      return statement :: statements

/-- The text without a byte order mark before it. -/
def skipMark : List Char → List Char
  | '\uFEFF' :: cs => cs
  | cs => cs

/-- The table that a document is. -/
def read? (text : String) : Option Toml := do
  let tokens ← Token.ofChars? (skipMark text.toList)
  let statements ← readStatements (2 * tokens.length + 2) tokens
  ofStatements? statements

end Toml

end Conformance
