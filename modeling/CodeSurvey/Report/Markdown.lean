import CodeSurvey.Format.Decimal
import CodeSurvey.Text.Lines

/-!
# Pieces of Markdown

Headings, tables and lists as the reports write them: a section has an empty line around its
heading and ends with one, and a section without content is left out.
-/

namespace CodeSurvey.Report

/-- A natural number with a comma between groups of three digits. -/
def grouped (n : Nat) : String :=
  let rec groups : (fuel : Nat) → List Char → List (List Char)
    | 0, digits => [digits]
    | fuel + 1, digits =>
      if digits.length ≤ 3 then [digits] else digits.take 3 :: groups fuel (digits.drop 3)
  let digits := (Format.natText n).toList.reverse
  String.ofList ((Text.join [','] (groups digits.length digits)).reverse)

/-- How many characters of a text a report shows. -/
def longestShown : Int :=
  160

/-- The first line of a text, cut if it is long. -/
def shown (text : String) : String :=
  ((Text.headline? text.toList longestShown).map String.ofList).getD ""

/-- The ending of a noun that is counted. -/
def plural (n : Nat) : String :=
  if n == 1 then "" else "s"

/-- A text as code. -/
def code (text : String) : String :=
  "`" ++ text ++ "`"

/-- One row of a table. -/
def row (cells : List String) : String :=
  "| " ++ " | ".intercalate cells ++ " |\n"

/-- The head of a table: the titles of the columns and, under each, a line of the given width. -/
def head (columns : List String) : String :=
  row columns ++ "|"
    ++ String.join (columns.map fun c => String.ofList (List.replicate (c.length + 2) '-') ++ "|")
    ++ "\n"

/-- One item of a list. -/
def item (text : String) : String :=
  "- " ++ text ++ "\n"

/-- A section with lines under an introduction. Without lines only its end is left. -/
def titled (title introduction : String) (lines : List String) : String :=
  if lines.isEmpty then "\n"
  else "\n## " ++ title ++ "\n\n" ++ introduction ++ String.join lines ++ "\n\n"

/-- Yes or no. -/
def yesNo (b : Bool) : String :=
  if b then "Yes" else "No"

end CodeSurvey.Report
