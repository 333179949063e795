import CodeSurvey.Text.Basic

/-!
# Lines

Two ways to name the lines of a text: by the offset of a character (`LineTable.lineAt`) and by the
place in the list of lines (`lines`). Both count line feeds only. `breakLines` splits at every kind
of line break instead.
-/

namespace CodeSurvey.Text

/-! ## Line feeds -/

/-- The lines of a text: parts between line feeds, each without carriage returns at its end. A line
feed at the very end starts no further line. -/
def lines (text : List Char) : List (List Char) :=
  if text.isEmpty then []
  else
    let parts := (splitAt '\n' text).map (dropEndWhile (· == '\r'))
    -- The part after a last line feed is empty and no line of its own.
    if parts.getLast? == some [] then parts.dropLast else parts

/-- The offsets at which lines start, for the rest of a text that begins at `offset`. -/
def startsFrom (offset : Nat) : List Char → List Nat
  | [] => []
  | c :: rest =>
    if c == '\n' then (offset + 1) :: startsFrom (offset + 1) rest else startsFrom (offset + 1) rest

/-- The offsets at which the lines of a text start, in increasing order. -/
structure LineTable where
  starts : List Nat

/-- The line table of a text: one line starts at the beginning and one after each line feed. -/
def LineTable.ofText (text : List Char) : LineTable :=
  ⟨0 :: startsFrom 0 text⟩

/-- The number, counted from 1, of the line that holds an offset: how many lines have started by
then. -/
def LineTable.lineAt (table : LineTable) (offset : Int) : Nat :=
  table.starts.countP fun (start : Nat) => (start : Int) ≤ offset

/-- The first line of a text without blanks around it, cut at a signed bound with three points after
it if it is longer. The empty text has none. -/
def headline? (text : List Char) (limit : Int) : Option (List Char) :=
  if text.isEmpty then none
  else
    let first := trim (beforeFirst '\n' text)
    some (if limit < first.length then upTo first limit ++ "...".toList else first)

/-- The text with a line feed for each carriage return, alone or before a line feed. -/
def withLineFeeds : List Char → List Char
  | '\r' :: '\n' :: rest => '\n' :: withLineFeeds rest
  | '\r' :: rest => '\n' :: withLineFeeds rest
  | c :: rest => c :: withLineFeeds rest
  | [] => []

/-! ## Every kind of line break -/

/-- The lines of a text, where `line` holds the characters (last first) of the line being read. A
carriage return and a line feed together are one break. -/
def breakLinesFrom (line : List Char) : List Char → List (List Char)
  | [] => if line.isEmpty then [] else [line.reverse]
  | '\r' :: '\n' :: rest => line.reverse :: breakLinesFrom [] rest
  | c :: rest =>
    if isLineBreak c then line.reverse :: breakLinesFrom [] rest
    else breakLinesFrom (c :: line) rest

/-- The lines of a text, split at every kind of line break. -/
def breakLines (text : List Char) : List (List Char) :=
  breakLinesFrom [] text

/-! ## Tab stops -/

/-- The text from a column on with each tab replaced by blanks up to the next tab stop; without a
positive width tabs vanish. -/
def expandTabsFrom (width : Nat) (column : Nat) : List Char → List Char
  | [] => []
  | c :: rest =>
    if c == '\t' then
      let gap := if width == 0 then 0 else width - column % width
      List.replicate gap ' ' ++ expandTabsFrom width (column + gap) rest
    else if c == '\n' || c == '\r' then c :: expandTabsFrom width 0 rest
    else c :: expandTabsFrom width (column + 1) rest

/-- The text with tabs replaced by blanks; tab stops stand every `width` columns. -/
def expandTabs (width : Int) (text : List Char) : List Char :=
  expandTabsFrom width.toNat 0 text

end CodeSurvey.Text
