import CodeSurvey.Text.Basic

/-!
# Brackets and string literals

Finds where a bracket closes, where a block ends and where an expression ends. The scans know
brackets and string literals, nothing else; each has a ceiling on how far it looks.
-/

namespace CodeSurvey.Source

open Text

/-! ## String literals -/

/-- Quotes that delimit string literals. -/
def isQuote (c : Char) : Bool :=
  c == '\'' || c == '"' || c == '\x60'

/-- Where a scan stands: in code, in a literal, or in a literal after a backslash. -/
inductive Literal where
  | code
  | inside (quote : Char)
  | escaped (quote : Char)
  deriving Repr, DecidableEq

/-- Where a scan stands after one more character. -/
def Literal.step : Literal → Char → Literal
  | code, c => if isQuote c then inside c else code
  | inside q, c => if c == '\\' then escaped q else if c == q then code else inside q
  | escaped q, _ => inside q

/-! ## Bracket kinds -/

/-- The opening brackets of expressions. -/
def isOpener (c : Char) : Bool :=
  c == '(' || c == '[' || c == '{'

/-- The closing brackets of expressions. -/
def isCloser (c : Char) : Bool :=
  c == ')' || c == ']' || c == '}'

/-- The closing bracket of an opening one. -/
def closer? : Char → Option Char
  | '(' => some ')'
  | '[' => some ']'
  | '{' => some '}'
  | _ => none

/-! ## Ceilings -/

/-- How many characters of a scan are looked at by default to read a signature. -/
def signatureCeiling : Int := 5000

/-- How many characters of a scan are looked at by default to read a block. -/
def blockCeiling : Int := 2000000

/-- The part of a text that a scan may look at. -/
def window (text : List Char) (start : Nat) (ceiling : Int) : List Char :=
  (text.drop start).take ceiling.toNat

/-! ## Matching brackets -/

/-- How far ahead the closer stands that brings the depth of its kind back to zero. Brackets in
literals do not count, nor do brackets of other kinds. -/
def closeAhead? (opener closer : Char) : Literal → (depth : Nat) → List Char → Option Nat
  | _, _, [] => none
  | .code, depth, c :: rest =>
    if c == opener then (closeAhead? opener closer .code (depth + 1) rest).map (· + 1)
    -- The scan starts at the opener, so the depth is one or more from its first step on.
    else if c == closer && depth == 1 then some 0
    else if c == closer then (closeAhead? opener closer .code (depth - 1) rest).map (· + 1)
    else (closeAhead? opener closer (Literal.code.step c) depth rest).map (· + 1)
  | lit, depth, c :: rest => (closeAhead? opener closer (lit.step c) depth rest).map (· + 1)

/-- The offset of the bracket that matches the one at `start`, if it lies within the ceiling. -/
def closing? (text : List Char) (start : Nat) (ceiling : Int := signatureCeiling) : Option Nat := do
  let opener ← text[start]?
  let closer ← closer? opener
  (closeAhead? opener closer .code 0 (window text start ceiling)).map (· + start)

/-! ## Blocks -/

/-- How many characters follow up to the brace, itself included, that closes `depth + 1` open
blocks. -/
def blockAhead? : (depth : Nat) → List Char → Option Nat
  | _, [] => none
  | depth, c :: rest =>
    if c == '{' then (blockAhead? (depth + 1) rest).map (· + 1)
    else if c == '}' then
      match depth with
      | 0 => some 1
      | outer + 1 => (blockAhead? outer rest).map (· + 1)
    else (blockAhead? depth rest).map (· + 1)

/-- How many characters are taken by default where no block follows. -/
def blockFallback : Int := 200

/-- The text from `start` to the end of the first block that opens at or after `from`. Every brace
counts, whatever it stands in. A block that does not end is cut at the ceiling; where none opens a
short piece of text is taken instead. -/
def block (text : List Char) (start : Nat) (searchFrom : Nat) (fallback : Int := blockFallback)
    (ceiling : Int := blockCeiling) : List Char :=
  match indexFrom? ['{'] text (max searchFrom start) with
  | none => cut text start (start + fallback)
  | some opening =>
    -- The ceiling counts from behind the brace; a negative one may lie before it.
    let limit : Int := min text.length (opening + 1 + ceiling)
    match blockAhead? 0 (between text (opening + 1) limit.toNat) with
    | some n => between text start (opening + 1 + n)
    | none => cut text start limit

/-! ## Expressions -/

/-- How far ahead an expression ends: at a semicolon or line feed outside brackets, at a bracket
that closes more than was opened, or where the text ends. A backslash in a literal takes the next
character with it, even one that lies beyond the text. -/
def expressionAhead : Literal → (depth : Nat) → List Char → Nat
  | .escaped _, _, [] => 1
  | _, _, [] => 0
  | .code, depth, c :: rest =>
    if isOpener c then expressionAhead .code (depth + 1) rest + 1
    else if isCloser c then
      match depth with
      | 0 => 0
      | outer + 1 => expressionAhead .code outer rest + 1
    -- Inside brackets an expression may run over several lines.
    else if (c == ';' || c == '\n') && depth == 0 then 0
    else expressionAhead (Literal.code.step c) depth rest + 1
  | lit, depth, c :: rest => expressionAhead (lit.step c) depth rest + 1

/-- The offset where the expression that starts at `start` ends. -/
def expressionEnd (text : List Char) (start : Nat) (ceiling : Int := blockCeiling) : Nat :=
  start + expressionAhead .code 0 (window text start ceiling)

/-- The offset of the first character at or after `start` that is no blank. -/
def skipBlanks (text : List Char) (start : Nat) : Nat :=
  start + ((text.drop start).takeWhile isSpace).length

end CodeSurvey.Source
