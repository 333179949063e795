import CodeSurvey.Text.Lines

/-!
# Cursors

A place in a document: what follows it, and its column and line, which count from 0. Line feeds are
the only breaks that a cursor meets besides the next-line character and the line and paragraph
separators; the end of the document reads as the character zero, which stands nowhere else.
-/

namespace CodeSurvey.Format.Yaml

/-! ## Characters -/

/-- The character that stands for the end of the document. -/
def theEnd : Char :=
  '\x00'

/-- Characters that break lines. -/
def isBreak (c : Char) : Bool :=
  c == '\n' || c == '\x85' || c == '\u2028' || c == '\u2029'

/-- Line breaks and the end. -/
def isBreakOrEnd (c : Char) : Bool :=
  c == theEnd || isBreak c

/-- Blanks, line breaks and the end. -/
def isGap (c : Char) : Bool :=
  c == ' ' || c == '\t' || isBreakOrEnd c

/-- Characters that a document may hold. -/
def isAllowed (c : Char) : Bool :=
  let n := c.toNat
  n == 9 || n == 10 || n == 13 || (0x20 ≤ n && n ≤ 0x7E) || n == 0x85
    || (0xA0 ≤ n && n ≤ 0xD7FF) || (0xE000 ≤ n && n ≤ 0xFFFD) || 0x10000 ≤ n

/-! ## Cursors -/

/-- A place in a document. -/
structure Cursor where
  rest : List Char
  index : Nat := 0
  line : Nat := 0
  column : Nat := 0
  deriving Repr

namespace Cursor

/-- The character that stands `n` places further on. -/
def peek (c : Cursor) (n : Nat := 0) : Char :=
  c.rest.getD n theEnd

/-- The place after one more character. A byte order mark takes no column. -/
def next (c : Cursor) : Cursor :=
  match c.rest with
  | [] => c
  | d :: rest =>
    if isBreak d then ⟨rest, c.index + 1, c.line + 1, 0⟩
    else ⟨rest, c.index + 1, c.line, if d == '\uFEFF' then c.column else c.column + 1⟩

/-- The place after `n` more characters. -/
def advance : Nat → Cursor → Cursor
  | 0, c => c
  | n + 1, c => advance n c.next

/-- The characters of a class that stand here. -/
def run (c : Cursor) (p : Char → Bool) : List Char :=
  c.rest.takeWhile p

/-- The place after the characters of a class. -/
def skip (c : Cursor) (p : Char → Bool) : Cursor :=
  advance (c.run p).length c

/-- The place after blanks. -/
def skipSpaces (c : Cursor) : Cursor :=
  c.skip (· == ' ')

/-- The line break that stands here, written as a line feed unless it is a separator, and the place
after it. -/
def lineBreak? (c : Cursor) : Option (Char × Cursor) :=
  if c.peek == '\n' || c.peek == '\x85' then some ('\n', c.next)
  else if isBreak c.peek then some (c.peek, c.next)
  else none

/-- Whether a line of three such characters stands here that parts documents. -/
def atMarker (c : Cursor) : Bool :=
  let mark := c.rest.take 3
  (mark == ['-', '-', '-'] || mark == ['.', '.', '.']) && isGap (c.peek 3)

end Cursor

end CodeSurvey.Format.Yaml
