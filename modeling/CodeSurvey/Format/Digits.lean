import CodeSurvey.Format.Value
import CodeSurvey.Pattern.Matching

/-!
# Digits and days

Digits in bases up to sixteen, and which days the calendar has.
-/

namespace CodeSurvey.Format

/-! ## Digits -/

/-- The value of a digit in base sixteen. -/
def hexValue? (c : Char) : Option Nat :=
  if '0' ≤ c && c ≤ '9' then some (c.toNat - 48)
  else if 'a' ≤ c && c ≤ 'f' then some (c.toNat - 87)
  else if 'A' ≤ c && c ≤ 'F' then some (c.toNat - 55)
  else none

/-- The number that digits write in a base; what is no digit counts as zero. -/
def ofDigits (base : Nat) (digits : List Char) : Nat :=
  digits.foldl (fun n c => n * base + (hexValue? c).getD 0) 0

/-- The number that decimal digits write. -/
def decimal (digits : List Char) : Nat :=
  ofDigits 10 digits

/-- More decimal digits than this make no whole number. -/
def maxDigits : Nat := 4300

/-- A whole number with this size. -/
def signed (negative : Bool) (n : Nat) : Int :=
  if negative then -n else n

/-! ## Digits in matches -/

/-- A decimal digit. -/
def digit : Pattern :=
  .one (.range '0' '9')

/-- The digits kept under a key, without underscores between them. -/
def keptDigits (m : Pattern.Match) (key : String) : List Char :=
  ((m.group? key).getD []).filter (· != '_')

/-- The number kept under a key; zero if nothing is. -/
def keptNumber (m : Pattern.Match) (key : String) : Nat :=
  decimal (keptDigits m key)

/-! ## Days -/

/-- Whether a year has a day more. -/
def isLeap (year : Nat) : Bool :=
  year % 4 == 0 && (year % 100 != 0 || year % 400 == 0)

/-- How many days a month has. -/
def daysIn (year month : Nat) : Nat :=
  if month == 2 then if isLeap year then 29 else 28
  else if month == 4 || month == 6 || month == 9 || month == 11 then 30
  else 31

/-- The day of the calendar with these numbers, if there is one. Years count from 1 to 9999. -/
def day? (year month day : Nat) : Option Day :=
  if 1 ≤ year && year ≤ 9999 && 1 ≤ month && month ≤ 12 && 1 ≤ day && day ≤ daysIn year month then
    some ⟨year, month, day⟩
  else none

/-- The microseconds that the digits after a point write; only six of them count. -/
def microseconds (digits : List Char) : Nat :=
  decimal ((digits ++ List.replicate 6 '0').take 6)

end CodeSurvey.Format
