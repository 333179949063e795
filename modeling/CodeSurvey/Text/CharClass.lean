import CodeSurvey.Text.LetterTable
import CodeSurvey.Text.CaseTable
import CodeSurvey.Text.PrintTable

/-!
# Character classes

Blank characters, word characters, digits and letter case, over all of Unicode. Every class answers
ASCII characters without a look at the tables.
-/

namespace CodeSurvey.Text

/-- Whether a code point lies in one of the ranges. -/
def inRanges (ranges : List (Nat × Nat)) (n : Nat) : Bool :=
  ranges.any fun r => r.1 ≤ n && n ≤ r.2

/-! ## Blanks -/

/-- Blank characters: the ASCII ones with the four separators U+001C to U+001F, and the Unicode
spaces and line separators. -/
def isSpace (c : Char) : Bool :=
  let n := c.toNat
  if n < 128 then n == 32 || (9 ≤ n && n ≤ 13) || (28 ≤ n && n ≤ 31)
  else n == 0x85 || n == 0xA0 || n == 0x1680 || (0x2000 ≤ n && n ≤ 0x200A)
    || n == 0x2028 || n == 0x2029 || n == 0x202F || n == 0x205F || n == 0x3000

/-- Characters that end a line where every kind of line break counts. -/
def isLineBreak (c : Char) : Bool :=
  let n := c.toNat
  (10 ≤ n && n ≤ 13) || (28 ≤ n && n ≤ 30) || n == 0x85 || n == 0x2028 || n == 0x2029

/-! ## Words and digits -/

/-- Letters, digits and other numerals. -/
def isLetterOrNumber (c : Char) : Bool :=
  if c.toNat < 128 then c.isAlphanum else inRanges letterOrNumberRanges c.toNat

/-- Word characters: letters, numerals and the underscore. -/
def isWord (c : Char) : Bool :=
  isLetterOrNumber c || c == '_'

/-- Decimal digits of any script. -/
def isDecimal (c : Char) : Bool :=
  if c.toNat < 128 then c.isDigit else inRanges decimalRanges c.toNat

/-- The value of a decimal digit of any script. -/
def decimalValue? (c : Char) : Option Nat :=
  if c.toNat < 128 then
    if c.isDigit then some (c.toNat - 48) else none
  else
    (decimalRanges.find? fun r => r.1 ≤ c.toNat && c.toNat ≤ r.2).map fun r => (c.toNat - r.1) % 10

/-- Characters that print as themselves. -/
def isPrintable (c : Char) : Bool :=
  if c.toNat < 128 then 32 ≤ c.toNat && c.toNat < 127 else !inRanges unprintableRanges c.toNat

/-! ## Letter case -/

/-- Whether a code point is one of the steps of a run. -/
def CaseRun.contains (r : CaseRun) (n : Nat) : Bool :=
  r.first ≤ n && n ≤ r.last && (n - r.first) % r.step == 0

/-- The lower-case character of a character, one for one. -/
def lowerChar (c : Char) : Char :=
  if c.toNat < 128 then c.toLower
  else match lowerRuns.find? (·.contains c.toNat) with
    | some r => Char.ofNat (c.toNat + r.shift).toNat
    | none => c

/-- The other characters whose lower case is the given character. -/
def upperChars (c : Char) : List Char :=
  let ascii := if c.isLower then [c.toUpper] else []
  let others := lowerRuns.filterMap fun r =>
    let n := (c.toNat : Int) - r.shift
    if 0 ≤ n && r.contains n.toNat then some (Char.ofNat n.toNat) else none
  ascii ++ others

/-- Upper-case characters. -/
def isUpper (c : Char) : Bool :=
  if c.toNat < 128 then c.isUpper else upperRuns.any (·.contains c.toNat)

/-- Letters that have case. -/
def isCased (c : Char) : Bool :=
  if c.toNat < 128 then c.isAlpha else inRanges casedRanges c.toNat

/-- Marks that are skipped when the cased neighbours of a character are sought. -/
def isCaseIgnorable (c : Char) : Bool :=
  if c.toNat < 128 then c == '\'' || c == '.' || c == ':' || c == '^' || c == '\x60'
  else inRanges caseIgnorableRanges c.toNat

/-- The lower-case characters that stand for a lower-case character when case is ignored. -/
def foldClass (c : Char) : List Char :=
  c :: ((foldAlike.lookup c.toNat).getD []).map Char.ofNat

/-- Two characters that are equal when case is ignored. -/
def sameFold (a b : Char) : Bool :=
  (foldClass (lowerChar a)).contains (lowerChar b)

/-- Some sigma at the end of a word is written with the final form: a cased letter stands before it
and none after it. -/
def isFinalSigma (before after : List Char) : Bool :=
  let cased (rest : List Char) :=
    match rest.dropWhile isCaseIgnorable with
    | c :: _ => isCased c
    | [] => false
  cased before && !cased after

/-- The lower-case form of the characters that follow `before` (last first). -/
def lowerAfter : (before : List Char) → List Char → List Char
  | _, [] => []
  | before, c :: rest =>
    let here :=
      if c.toNat < 128 then [c.toLower]
      else if c == 'İ' then ['i', Char.ofNat 0x307]
      else if c == 'Σ' then [if isFinalSigma before rest then 'ς' else 'σ']
      else [lowerChar c]
    here ++ lowerAfter (c :: before) rest

/-- The text in lower case. -/
def lower (text : List Char) : List Char :=
  lowerAfter [] text

end CodeSurvey.Text
