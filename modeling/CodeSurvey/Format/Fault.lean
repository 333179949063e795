import CodeSurvey.Format.Decimal
import CodeSurvey.Format.Quoted
import CodeSurvey.Text.Utf8

/-!
# Faults of single values

What may be wrong with a text that has to be a number or a moment, and with bytes that have to be a
text.
-/

namespace CodeSurvey.Format

/-- A part of a moment that no calendar or clock has. -/
inductive MomentPart where
  | year (n : Nat)
  | month
  | day
  | hour
  | minute
  | second
  deriving Repr, DecidableEq

/-- What is told about a part of a moment. -/
def MomentPart.message : MomentPart → String
  | year n => "year " ++ natText n ++ " is out of range"
  | month => "month must be in 1..12"
  | day => "day is out of range for month"
  | hour => "hour must be in 0..23"
  | minute => "minute must be in 0..59"
  | second => "second must be in 0..59"

/-- Why bytes are no character, as it is told. -/
def defectText : Text.Defect → String
  | .noStart => "invalid start byte"
  | .notContinued => "invalid continuation byte"
  | .cutOff => "unexpected end of data"

/-- What is told about bytes that are no character. -/
def brokenText (b : Text.Broken) : String :=
  let place := match b.bytes with
    | [byte] =>
      " 0x" ++ String.ofList (Nat.toDigits 16 byte) ++ " in position " ++ natText b.position
    | bytes => "s in position " ++ natText b.position ++ "-"
      ++ natText (b.position + bytes.length - 1)
  "'utf-8' codec can't decode byte" ++ place ++ ": " ++ defectText b.defect

/-- What is wrong with a text. -/
inductive Fault where
  /-- It has to be a whole number in a base. -/
  | notWhole (base : Nat) (text : String)
  /-- There is no such moment. -/
  | noMoment (part : MomentPart)
  /-- It is no text at all. -/
  | notText (broken : Text.Broken)
  deriving Repr, DecidableEq

/-- What is told about a fault. -/
def Fault.message : Fault → String
  | notWhole base text =>
    "invalid literal for int() with base " ++ natText base ++ ": " ++ quoted text
  | noMoment part => part.message
  | notText broken => brokenText broken

end CodeSurvey.Format
