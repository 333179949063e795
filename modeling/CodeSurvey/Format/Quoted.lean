import CodeSurvey.Format.Value
import CodeSurvey.Text.CharClass

/-!
# Values as text

The text in which a value is shown where no format asks for another: strings in quotes with escapes
for what does not print, lists in brackets and mappings in braces.
-/

namespace CodeSurvey.Format

/-! ## Strings -/

/-- Digits in base sixteen, at least `width` of them. -/
def paddedHex (width n : Nat) : List Char :=
  let digits := Nat.toDigits 16 n
  List.replicate (width - digits.length) '0' ++ digits

/-- A character between quotes of one kind: the quote, the backslash and what does not print are
escaped. -/
def quotedChar (quote c : Char) : List Char :=
  if c == quote || c == '\\' then ['\\', c]
  else match c with
  | '\n' => ['\\', 'n']
  | '\r' => ['\\', 'r']
  | '\t' => ['\\', 't']
  | _ =>
    if Text.isPrintable c then [c]
    else if c.toNat < 0x100 then '\\' :: 'x' :: paddedHex 2 c.toNat
    else if c.toNat < 0x10000 then '\\' :: 'u' :: paddedHex 4 c.toNat
    else '\\' :: 'U' :: paddedHex 8 c.toNat

/-- A string in quotes: double ones only if it holds a single quote and no double one. -/
def quoted (s : String) : String :=
  let chars := s.toList
  let quote := if chars.contains '\'' && !chars.contains '"' then '"' else '\''
  String.ofList (quote :: chars.flatMap (quotedChar quote) ++ [quote])

/-! ## Moments -/

/-- A number with at least `width` digits. -/
def padded (width n : Nat) : String :=
  let digits := Nat.toDigits 10 n
  String.ofList (List.replicate (width - digits.length) '0' ++ digits)

/-- A day as year, month and day. -/
def dayText (d : Day) : String :=
  padded 4 d.year ++ "-" ++ padded 2 d.month ++ "-" ++ padded 2 d.day

/-- A time of day, with six places if it is no whole second. -/
def clockText (t : Clock) : String :=
  padded 2 t.hour ++ ":" ++ padded 2 t.minute ++ ":" ++ padded 2 t.second
    ++ (if t.microsecond == 0 then "" else "." ++ padded 6 t.microsecond)

/-- A distance from universal time in hours and minutes, with seconds if there are any. -/
def offsetText (seconds : Int) : String :=
  let n := seconds.natAbs
  (if seconds < 0 then "-" else "+") ++ padded 2 (n / 3600) ++ ":" ++ padded 2 (n / 60 % 60)
    ++ (if n % 60 == 0 then "" else ":" ++ padded 2 (n % 60))

/-- A moment as text. -/
def momentText : Moment → String
  | .day d => dayText d
  | .clock t => clockText t
  | .both d t offset => dayText d ++ " " ++ clockText t ++ (offset.map offsetText).getD ""

/-- Fields of a moment that are shown: those at the end that are zero are left out, down to the
first `least`. -/
def shownFields (least : Nat) (fields : List Nat) : List String :=
  let rest := ((fields.drop least).reverse.dropWhile (· == 0)).reverse
  (fields.take least ++ rest).map natText

/-- A moment as it is shown inside a list or a mapping. -/
def momentForm : Moment → String
  | .day d => "datetime.date(" ++ ", ".intercalate (shownFields 3 [d.year, d.month, d.day]) ++ ")"
  | .clock t =>
    "datetime.time(" ++ ", ".intercalate
      (shownFields 2 [t.hour, t.minute, t.second, t.microsecond]) ++ ")"
  | .both d t offset =>
    let zone := match offset with
      | none => []
      | some 0 => ["tzinfo=datetime.timezone.utc"]
      | some n =>
        let days := if n < 0 then ["days=-1"] else []
        ["tzinfo=datetime.timezone(datetime.timedelta(" ++ ", ".intercalate
          (days ++ ["seconds=" ++ intText (if n < 0 then n + 86400 else n)]) ++ "))"]
    "datetime.datetime(" ++ ", ".intercalate
      (shownFields 5 [d.year, d.month, d.day, t.hour, t.minute, t.second, t.microsecond] ++ zone)
      ++ ")"

/-! ## Values -/

mutual

/-- A value as it is shown inside a list or a mapping. -/
def form : Value → String
  | .null => "None"
  | .bool b => if b then "True" else "False"
  | .number n => n.text
  | .text s => quoted s
  | .list xs => "[" ++ ", ".intercalate (forms xs) ++ "]"
  | .map entries => "\x7b" ++ ", ".intercalate (entryForms entries) ++ "\x7d"
  | .moment m => momentForm m

/-- The elements of a list, each as it is shown there. -/
def forms : List Value → List String
  | [] => []
  | x :: rest => form x :: forms rest

/-- The entries of a mapping, each as it is shown there. -/
def entryForms : List (String × Value) → List String
  | [] => []
  | (key, v) :: rest => (quoted key ++ ": " ++ form v) :: entryForms rest

end

/-- A value as text: a string is its own text. -/
def textOf : Value → String
  | .text s => s
  | .moment m => momentText m
  | v => form v

end CodeSurvey.Format
