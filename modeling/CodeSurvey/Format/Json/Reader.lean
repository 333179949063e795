import CodeSurvey.Format.Digits
import CodeSurvey.Text.Basic

/-!
# Reading JSON

Reads one JSON document. Beyond the standard, `NaN` and the infinities are numbers. A key that
comes twice keeps its first place and its last value. A number with a fraction or an exponent is a
double, any other a whole number.
-/

namespace CodeSurvey.Format.Json

/-- Blanks between the tokens of a document. -/
def isGap (c : Char) : Bool :=
  c == ' ' || c == '\t' || c == '\n' || c == '\r'

/-- What follows blanks. -/
def skipGap (text : List Char) : List Char :=
  text.dropWhile isGap

/-- Removes a text from the front of another. -/
def strip? : List Char → List Char → Option (List Char)
  | [], rest => some rest
  | _ :: _, [] => none
  | c :: word, d :: rest => if c == d then strip? word rest else none

/-! ## Strings -/

/-- Four digits in base sixteen. -/
def hexUnit? : List Char → Option (Nat × List Char)
  | a :: b :: c :: d :: rest => do
    let a ← hexValue? a
    let b ← hexValue? b
    let c ← hexValue? c
    let d ← hexValue? d
    some (((a * 16 + b) * 16 + c) * 16 + d, rest)
  | _ => none

/-- The character of a code unit; half of a pair alone gives the replacement character. -/
def unitChar (n : Nat) : Char :=
  if n.isValidChar then Char.ofNat n else '\uFFFD'

/-- The character that a letter after a backslash stands for. -/
def escapeChar? : Char → Option Char
  | '"' => some '"'
  | '\\' => some '\\'
  | '/' => some '/'
  | 'b' => some '\x08'
  | 'f' => some '\x0c'
  | 'n' => some '\n'
  | 'r' => some '\r'
  | 't' => some '\t'
  | _ => none

/-- The characters of a string up to its closing quote. Control characters have to be escaped. -/
def stringBody : (fuel : Nat) → List Char → Option (List Char × List Char)
  | 0, _ => none
  | _, [] => none
  | _, '"' :: rest => some ([], rest)
  | fuel + 1, '\\' :: 'u' :: rest => do
    let (high, rest) ← hexUnit? rest
    let pair := if 0xD800 ≤ high && high < 0xDC00 then
        match rest with
        | '\\' :: 'u' :: more => (hexUnit? more).filter fun u => 0xDC00 ≤ u.1 && u.1 < 0xE000
        | _ => none
      else none
    match pair with
    | some (low, rest) =>
      let (chars, rest) ← stringBody fuel rest
      some (unitChar (0x10000 + (high - 0xD800) * 0x400 + (low - 0xDC00)) :: chars, rest)
    | none =>
      let (chars, rest) ← stringBody fuel rest
      some (unitChar high :: chars, rest)
  | fuel + 1, '\\' :: c :: rest => do
    let c ← escapeChar? c
    let (chars, rest) ← stringBody fuel rest
    some (c :: chars, rest)
  | fuel + 1, c :: rest =>
    if c.toNat < 32 || c == '\\' then none
    else do
      let (chars, rest) ← stringBody fuel rest
      some (c :: chars, rest)

/-! ## Numbers -/

/-- Digits after a point, if both are there. -/
def fraction? : List Char → Option (List Char × List Char)
  | '.' :: rest =>
    let digits := rest.takeWhile Char.isDigit
    if digits.isEmpty then none else some (digits, rest.dropWhile Char.isDigit)
  | _ => none

/-- An exponent, if there is one. -/
def exponent? : List Char → Option (Int × List Char)
  | c :: rest =>
    if c == 'e' || c == 'E' then
      let (negative, rest) := match rest with
        | '-' :: r => (true, r)
        | '+' :: r => (false, r)
        | r => (false, r)
      let digits := rest.takeWhile Char.isDigit
      if digits.isEmpty then none
      else some (signed negative (decimal digits), rest.dropWhile Char.isDigit)
    else none
  | [] => none

/-- A number without its sign. A leading zero stands alone. -/
def size? (negative : Bool) (text : List Char) : Option (Value × List Char) := do
  let (whole, rest) ← match text with
    | '0' :: rest => some (['0'], rest)
    | c :: _ =>
      if c.isDigit then some (text.takeWhile Char.isDigit, text.dropWhile Char.isDigit) else none
    | [] => none
  let point := fraction? rest
  let rest := (point.map (·.2)).getD rest
  let power := exponent? rest
  let rest := (power.map (·.2)).getD rest
  if point.isNone && power.isNone then
    -- Only whole numbers have a limit; doubles are rounded.
    if whole.length > maxDigits then none
    else some (.int (signed negative (decimal whole)), rest)
  else
    let places := (point.map (·.1)).getD []
    let x := floatOf (decimal (whole ++ places)) ((power.map (·.1)).getD 0 - places.length)
    some (.number (.float (if negative then -x else x)), rest)

/-- Words that are values. -/
def wordValues : List (String × Value) := [
  ("null", .null), ("true", .bool true), ("false", .bool false),
  ("NaN", .number (.float (0.0 / 0.0))), ("Infinity", .number (.float (1.0 / 0.0))),
  ("-Infinity", .number (.float (-1.0 / 0.0)))]

/-- A word or a number. -/
def scalar? (text : List Char) : Option (Value × List Char) :=
  match wordValues.findSome? fun w => (strip? w.1.toList text).map fun rest => (w.2, rest) with
  | some found => some found
  | none => match text with
    | '-' :: rest => size? true rest
    | _ => size? false text

/-! ## Documents -/

/-- How deeply lists and mappings may lie in each other. -/
def maxDepth : Nat :=
  985

mutual

/-- One value at the front of a text, and what follows it. -/
def value? : (fuel depth : Nat) → List Char → Option (Value × List Char)
  | 0, _, _ => none
  | fuel + 1, depth, text =>
    match depth, text with
    | _, '"' :: rest => (stringBody (rest.length + 1) rest).map fun (chars, rest) =>
      (.text (String.ofList chars), rest)
    | 0, '[' :: _ | 0, '{' :: _ => none
    | depth + 1, '[' :: rest =>
      match skipGap rest with
      | ']' :: rest => some (.list [], rest)
      | rest => (elements? fuel depth rest).map fun (xs, rest) => (.list xs, rest)
    | depth + 1, '{' :: rest =>
      match skipGap rest with
      | '}' :: rest => some (.map [], rest)
      | rest => (entries? fuel depth rest []).map fun (entries, rest) => (.map entries, rest)
    | _, _ => scalar? text

/-- The elements of a list up to its closing bracket. -/
def elements? : (fuel depth : Nat) → List Char → Option (List Value × List Char)
  | 0, _, _ => none
  | fuel + 1, depth, text => do
    let (x, rest) ← value? fuel depth text
    match skipGap rest with
    | ',' :: rest =>
      let (xs, rest) ← elements? fuel depth (skipGap rest)
      some (x :: xs, rest)
    | ']' :: rest => some ([x], rest)
    | _ => none

/-- The entries of a mapping up to its closing brace, put over those read so far. -/
def entries? : (fuel depth : Nat) → List Char → List (String × Value) →
    Option (List (String × Value) × List Char)
  | 0, _, _, _ => none
  | fuel + 1, depth, text, done => do
    match text with
    | '"' :: rest =>
      let (key, rest) ← stringBody (rest.length + 1) rest
      match skipGap rest with
      | ':' :: rest =>
        let (v, rest) ← value? fuel depth (skipGap rest)
        let done := Value.put (String.ofList key) v done
        match skipGap rest with
        | ',' :: rest => entries? fuel depth (skipGap rest) done
        | '}' :: rest => some (done, rest)
        | _ => none
      | _ => none
    | _ => none

end

/-- Reads a document: one value with nothing but blanks around it. -/
def read? (text : List Char) : Option Value := do
  let (v, rest) ← value? (text.length + 1) maxDepth (skipGap text)
  if (skipGap rest).isEmpty then some v else none

end CodeSurvey.Format.Json
