import CodeSurvey.Source.Bracket

/-!
# Where written types end

Types are read without a grammar: a return type ends at the body, the arrow or the statement's end,
the right-hand side of an alias at its statement's end. Angle brackets count here, except for the
one that ends an arrow.
-/

namespace CodeSurvey.Source

open Text

/-- The opening brackets of types. -/
def isTypeOpener (c : Char) : Bool :=
  isOpener c || c == '<'

/-- The bracket depth after one more character, where `previous` stands before it. -/
def typeDepth (previous : Option Char) (depth : Int) (c : Char) : Int :=
  if isTypeOpener c then depth + 1
  else if isCloser c then depth - 1
  else if c == '>' && previous != some '=' then depth - 1
  else depth

/-! ## Return types -/

/-- How many characters a return type takes, of at most `budget`. Outside brackets it ends before a
brace once something has been read, before a semicolon and before an arrow; and it ends before a
bracket that closes more than was opened. -/
def returnTypeLength : (budget : Nat) → (depth : Int) → (inked : Bool) → (previous : Char) →
    List Char → Nat
  | 0, _, _, _, _ => 0
  | _, _, _, _, [] => 0
  | budget + 1, depth, inked, previous, c :: rest =>
    let arrow := c == '=' && rest.head? == some '>'
    if depth == 0 && ((c == '{' && inked) || c == ';' || arrow) then 0
    else
      let depth' := typeDepth (some previous) depth c
      -- This closer belongs to what the type stands in.
      if depth' < 0 then 0
      else returnTypeLength budget depth' (inked || !isSpace c) c rest + 1

/-- Reads a return type that may stand at `start` after a colon. Gives the type with its blanks
squeezed, if there is one, and the offset after it. -/
def returnType (text : List Char) (start : Nat) (ceiling : Int := signatureCeiling) :
    Option (List Char) × Nat :=
  let colon := skipBlanks text start
  match text.drop colon with
  | ':' :: rest =>
    let n := returnTypeLength ceiling.toNat 0 false ':' rest
    let type := squeeze (rest.take n)
    (if type.isEmpty then none else some type, colon + 1 + n)
  | _ => (none, colon)

/-! ## Type aliases -/

/-- Whether a type goes on in the next line after this last character. -/
def goesOnAfter (c : Char) : Bool :=
  c == '=' || c == '|' || c == '&' || c == ',' || c == '?' || c == ':'

/-- Whether a type goes on in a line that starts with this character. -/
def goesOnBefore (c : Char) : Bool :=
  c == '|' || c == '&' || c == '?' || c == ':' || c == '.'

/-- How far ahead the first character of the next line is looked for. -/
def lineLookahead : Nat := 199

/-- How many characters the right-hand side of an alias takes, of at most `budget`. Outside brackets
it ends at a semicolon, and at a line feed after which it does not go on; and it ends before a
bracket that closes more than was opened. `ink` is the last character so far that is no blank. -/
def definitionLength : (budget : Nat) → (depth : Int) → (ink : Option Char) →
    (previous : Option Char) → List Char → Nat
  | 0, _, _, _, _ => 0
  | _, _, _, _, [] => 0
  | budget + 1, depth, ink, previous, c :: rest =>
    let depth' := typeDepth previous depth c
    let stops :=
      if isTypeOpener c then false
      else if isCloser c then depth' < 0
      else if c == ';' then depth ≤ 0
      else if c == '\n' && depth ≤ 0 then
        let goesOn := ((rest.take lineLookahead).dropWhile isSpace).head?.any goesOnBefore
        -- Before anything has been read a line feed ends nothing.
        ink.any (!goesOnAfter ·) && !goesOn
      else false
    if stops then 0
    else definitionLength budget depth' (if isSpace c then ink else some c) (some c) rest + 1

/-- How many characters of an alias are looked at by default. -/
def definitionCeiling : Int := 2000

/-- The offset where the right-hand side of an alias that starts at `start` ends. The character
before the text is taken to be its last one. -/
def definitionEnd (text : List Char) (start : Nat) (ceiling : Int := definitionCeiling) : Nat :=
  let previous := if start == 0 then text.getLast? else text[start - 1]?
  start + definitionLength ceiling.toNat 0 none previous (text.drop start)

end CodeSurvey.Source
