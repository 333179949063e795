import CodeSurvey.Format.Toml.Scalar
import CodeSurvey.Format.Toml.Table

/-!
# Reading TOML

Reads a document of version 1.0: statements on lines of their own, each a header that opens a table
or a key with its value.
-/

namespace CodeSurvey.Format.Toml

/-! ## Keys -/

/-- Characters of keys without quotes. -/
def isBare (c : Char) : Bool :=
  c.isAlphanum || c == '-' || c == '_'

/-- One part of a key. -/
def keyPart? (text : List Char) : Option (String × List Char) :=
  match text with
  | c :: _ =>
    if isBare c then some (String.ofList (text.takeWhile isBare), text.dropWhile isBare)
    else (lineString? text).map fun (chars, rest) => (String.ofList chars, rest)
  | [] => none

/-- A key and what follows it and the blanks after it. -/
def key? : (fuel : Nat) → List Char → Option (Key × List Char)
  | 0, _ => none
  | fuel + 1, text => do
    let (part, rest) ← keyPart? text
    match skipGap rest with
    | '.' :: rest =>
      let (parts, rest) ← key? fuel (skipGap rest)
      some (part :: parts, rest)
    | rest => some ([part], rest)

/-! ## Values -/

/-- How deeply lists and tables may lie in each other. -/
def maxDepth : Nat :=
  320

/-- What follows blanks, line breaks and comments inside a list. -/
def skipInList : (fuel : Nat) → List Char → Option (List Char)
  | 0, text => some text
  | fuel + 1, text =>
    match text.dropWhile fun c => isGap c || c == '\n' with
    | '#' :: rest => do skipInList fuel (← skipComment? ('#' :: rest))
    | rest => some rest

mutual

/-- A value, and what follows it. -/
def value? : (fuel depth : Nat) → List Char → Option (Value × List Char)
  | 0, _, _ => none
  | fuel + 1, depth, text =>
    match depth, text with
    -- Scalars may still stand at the greatest depth.
    | 0, '[' :: _ | 0, '{' :: _ => none
    | depth + 1, '[' :: rest => do
      match ← skipInList rest.length rest with
      | ']' :: rest => some (.list [], rest)
      | rest =>
        let (xs, rest) ← elements? fuel depth rest
        some (.list xs, rest)
    | depth + 1, '{' :: rest =>
      match skipGap rest with
      | '}' :: rest => some (.map [], rest)
      | rest => do
        let (t, rest) ← pairs? fuel depth rest {}
        some (.map t.table, rest)
    | _, _ => scalar? text

/-- The elements of a list up to its closing bracket; a comma may stand before that. -/
def elements? : (fuel depth : Nat) → List Char → Option (List Value × List Char)
  | 0, _, _ => none
  | fuel + 1, depth, text => do
    let (x, rest) ← value? fuel depth text
    match ← skipInList rest.length rest with
    | ']' :: rest => some ([x], rest)
    | ',' :: rest =>
      match ← skipInList rest.length rest with
      | ']' :: rest => some ([x], rest)
      | rest =>
        let (xs, rest) ← elements? fuel depth rest
        some (x :: xs, rest)
    | _ => none

/-- The pairs of a table on one line up to its closing brace. -/
def pairs? : (fuel depth : Nat) → List Char → LineTable → Option (LineTable × List Char)
  | 0, _, _, _ => none
  | fuel + 1, depth, text, t => do
    let (key, v, rest) ← pair? fuel depth text
    let t ← t.put key v
    match skipGap rest with
    | '}' :: rest => some (t, rest)
    -- After a comma another pair has to follow, unlike in lists.
    | ',' :: rest => pairs? fuel depth (skipGap rest) t
    | _ => none

/-- A key with its value. -/
def pair? : (fuel depth : Nat) → List Char → Option (Key × Value × List Char)
  | 0, _, _ => none
  | fuel + 1, depth, text => do
    match ← key? (text.length + 1) text with
    | (key, '=' :: rest) =>
      let (v, rest) ← value? fuel depth (skipGap rest)
      some (key, v, rest)
    | _ => none

end

/-! ## Statements -/

/-- The header that follows an opening bracket, with its closing brackets. -/
def header? (closing text : List Char) : Option (Key × List Char) := do
  let (key, rest) ← key? (text.length + 1) (skipGap text)
  if closing.isPrefixOf rest then some (key, rest.drop closing.length) else none

/-- One statement, if one starts here. -/
def statement? (d : Document) (text : List Char) : Option (Document × List Char) :=
  match text with
  | '[' :: '[' :: rest => do
    let (key, rest) ← header? [']', ']'] rest
    some (← d.openElement key, rest)
  | '[' :: rest => do
    let (key, rest) ← header? [']'] rest
    some (← d.openTable key, rest)
  | '#' :: _ | '\n' :: _ | [] => some (d, text)
  | _ => do
    let (key, v, rest) ← pair? (2 * text.length + 2) maxDepth text
    some (← d.put key v, rest)

/-- The statements of a document, one on a line. -/
def statements? : (fuel : Nat) → Document → List Char → Option Document
  | 0, _, _ => none
  | fuel + 1, d, text => do
    let (d, rest) ← statement? d (skipGap text)
    match ← skipComment? (skipGap rest) with
    | [] => some d
    | '\n' :: rest => statements? fuel d rest
    | _ => none

/-- The text with a single line feed for each carriage return and line feed. -/
def joinBreaks : List Char → List Char
  | '\r' :: '\n' :: rest => '\n' :: joinBreaks rest
  | c :: rest => c :: joinBreaks rest
  | [] => []

/-- Reads a document. -/
def read? (text : List Char) : Option Table :=
  let text := joinBreaks text
  (statements? (text.length + 1) {} text).map (·.table)

end CodeSurvey.Format.Toml
