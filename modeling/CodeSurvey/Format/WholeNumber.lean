import CodeSurvey.Text.Basic

/-!
# Whole numbers as text

A whole number is written with decimal digits of any script, perhaps with a sign in front, single
underscores between digits, and blanks around it.
-/

namespace CodeSurvey.Format

open Text

/-- Blanks that may stand around a whole number. -/
def isNumberGap (c : Char) : Bool :=
  isSpace c && !(28 ≤ c.toNat && c.toNat ≤ 31)

/-- The size of a whole number, of which `n` has been read; `fresh` says that a digit has to
follow. -/
def sizeFrom? (n : Nat) (fresh : Bool) : List Char → Option Nat
  | [] => if fresh then none else some n
  | '_' :: rest => if fresh then none else sizeFrom? n true rest
  | c :: rest => do sizeFrom? (n * 10 + (← decimalValue? c)) false rest

/-- The whole number that a text writes. -/
def wholeNumber? (text : List Char) : Option Int :=
  match dropEndWhile isNumberGap (text.dropWhile isNumberGap) with
  | '-' :: rest => (sizeFrom? 0 true rest).map fun n => -(n : Int)
  | '+' :: rest => (sizeFrom? 0 true rest).map Int.ofNat
  | text => (sizeFrom? 0 true text).map Int.ofNat

end CodeSurvey.Format
