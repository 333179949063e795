import CodeSurvey.Format.Digits
import CodeSurvey.Text.Basic

/-!
# Strings, numbers and moments

Readers of single values. Each takes the text from where the value starts and gives the value and
what follows it.
-/

namespace CodeSurvey.Format.Toml

open Pattern Text

/-! ## Blanks and comments -/

/-- Blanks within a line. -/
def isGap (c : Char) : Bool :=
  c == ' ' || c == '\t'

/-- What follows blanks within a line. -/
def skipGap (text : List Char) : List Char :=
  text.dropWhile isGap

/-- Control characters other than the tab; they stand nowhere but in line breaks. -/
def isControl (c : Char) : Bool :=
  (c.toNat < 32 && c != '\t') || c.toNat == 127

/-- What follows a comment, if one starts here. -/
def skipComment? : List Char → Option (List Char)
  | '#' :: rest =>
    let comment := rest.takeWhile (· != '\n')
    if comment.any isControl then none else some (rest.dropWhile (· != '\n'))
  | text => some text

/-! ## Strings -/

/-- The character that a letter after a backslash stands for. -/
def escapeChar? : Char → Option Char
  | 'b' => some '\x08'
  | 't' => some '\t'
  | 'n' => some '\n'
  | 'f' => some '\x0c'
  | 'r' => some '\r'
  | '"' => some '"'
  | '\\' => some '\\'
  | _ => none

/-- The character whose number is written with exactly `width` digits in base sixteen. -/
def hexChar? (width : Nat) (text : List Char) : Option (Char × List Char) :=
  let digits := text.take width
  let n := ofDigits 16 digits
  if digits.length == width && digits.all (fun c => (hexValue? c).isSome) && n.isValidChar then
    some (Char.ofNat n, text.drop width)
  else none

/-- What a backslash and the text after it stand for. Over several lines a backslash before a line
break stands for nothing, and so do the blanks and line breaks after that. -/
def escape? (long : Bool) : List Char → Option (List Char × List Char)
  | 'u' :: rest => (hexChar? 4 rest).map fun (c, rest) => ([c], rest)
  | 'U' :: rest => (hexChar? 8 rest).map fun (c, rest) => ([c], rest)
  | c :: rest =>
    if long && (isGap c || c == '\n') then
      match skipGap (c :: rest) with
      | '\n' :: rest => some ([], rest.dropWhile fun d => isGap d || d == '\n')
      | [] => some ([], [])
      | _ => none
    else (escapeChar? c).map fun c => ([c], rest)
  | [] => none

/-- Quotes right after the end of a string over several lines belong to it, up to two of them. -/
def endingQuotes (quote : Char) : List Char → List Char × List Char
  | a :: b :: rest =>
    if a == quote && b == quote then ([a, b], rest)
    else if a == quote then ([a], b :: rest)
    else ([], a :: b :: rest)
  | [a] => if a == quote then ([a], []) else ([], [a])
  | [] => ([], [])

/-- The characters of a string in double quotes up to its end. -/
def basicBody (long : Bool) : (fuel : Nat) → List Char → Option (List Char × List Char)
  | 0, _ => none
  | _, [] => none
  | fuel + 1, '"' :: rest =>
    if long then
      match rest with
      | '"' :: '"' :: rest => some (endingQuotes '"' rest)
      | _ => (basicBody long fuel rest).map fun (chars, rest) => ('"' :: chars, rest)
    else some ([], rest)
  | fuel + 1, '\\' :: rest => do
    let (chars, rest) ← escape? long rest
    let (more, rest) ← basicBody long fuel rest
    some (chars ++ more, rest)
  | fuel + 1, c :: rest =>
    if isControl c && !(long && c == '\n') then none
    else (basicBody long fuel rest).map fun (chars, rest) => (c :: chars, rest)

/-- The characters of a string in single quotes up to its end. -/
def literalBody (long : Bool) : List Char → Option (List Char × List Char)
  | [] => none
  | '\'' :: rest =>
    if long then
      match rest with
      | '\'' :: '\'' :: rest => some (endingQuotes '\'' rest)
      | _ => (literalBody long rest).map fun (chars, rest) => ('\'' :: chars, rest)
    else some ([], rest)
  | c :: rest =>
    if isControl c && !(long && c == '\n') then none
    else (literalBody long rest).map fun (chars, rest) => (c :: chars, rest)

/-- A line break right after the opening quotes of a string over several lines does not count. -/
def dropBreak : List Char → List Char
  | '\n' :: rest => rest
  | text => text

/-- A string on one line, if one starts here. -/
def lineString? : List Char → Option (List Char × List Char)
  | '"' :: rest => basicBody false (rest.length + 1) rest
  | '\'' :: rest => literalBody false rest
  | _ => none

/-- A string, if one starts here. -/
def string? : List Char → Option (List Char × List Char)
  | '"' :: '"' :: '"' :: rest =>
    let rest := dropBreak rest
    basicBody true (rest.length + 1) rest
  | '\'' :: '\'' :: '\'' :: rest => literalBody true (dropBreak rest)
  | text => lineString? text

/-! ## Moments -/

/-- One digit of a class. -/
def digitIn (first last : Char) : Pattern :=
  one (.range first last)

/-- Two digits up to fifty-nine. -/
def sixty : Pattern :=
  digitIn '0' '5' ++ digit

/-- Two digits of an hour. -/
def hours : Pattern :=
  alts [one (.ofString "01") ++ digit, lit "2" ++ digitIn '0' '3']

/-- A time of day. -/
def timePattern : Pattern :=
  capture "hour" hours ++ lit ":" ++ capture "minute" sixty ++ lit ":" ++ capture "second" sixty
    ++ opt (lit "." ++ capture "fraction" (rounds true 1 (some 6) digit) ++ many digit)

/-- A day, then perhaps a time of day, then perhaps a distance from universal time. -/
def dayPattern : Pattern :=
  capture "year" (rounds true 4 (some 4) digit) ++ lit "-"
    ++ capture "month" (alts [lit "0" ++ digitIn '1' '9', lit "1" ++ digitIn '0' '2']) ++ lit "-"
    ++ capture "day" (alts [lit "0" ++ digitIn '1' '9', one (.ofString "12") ++ digit,
      lit "3" ++ one (.ofString "01")])
    ++ opt (oneOf "Tt " ++ timePattern
      ++ opt (alts [capture "universal" (oneOf "Zz"),
        capture "sign" (oneOf "+-") ++ capture "zoneHour" hours ++ lit ":"
          ++ capture "zoneMinute" sixty]))

/-- The time of day of a match. -/
def clockOf (m : Match) : Clock :=
  ⟨keptNumber m "hour", keptNumber m "minute", keptNumber m "second",
    microseconds ((m.group? "fraction").getD [])⟩

/-- The distance from universal time of a match, in seconds. -/
def offsetOf (m : Match) : Option Int :=
  if m.has "universal" then some 0
  else (m.group? "sign").map fun s =>
    signed (s == ['-']) (keptNumber m "zoneHour" * 3600 + keptNumber m "zoneMinute" * 60)

/-- The moment of a match of a day, if the calendar has the day. -/
def momentOf? (m : Match) : Option Moment := do
  let d ← day? (keptNumber m "year") (keptNumber m "month") (keptNumber m "day")
  some (if m.has "hour" then .both d (clockOf m) (offsetOf m) else .day d)

/-! ## Numbers -/

/-- Digits of a kind with single underscores between them. -/
def digitRun (first digit : Pattern) : Pattern :=
  first ++ many (opt (lit "_") ++ digit)

/-- A number. -/
def numberPattern : Pattern :=
  let hex := one (.unions [.range '0' '9', .range 'A' 'F', .range 'a' 'f'])
  let run := digitRun digit digit
  alts [
    lit "0" ++ alts [lit "x" ++ capture "hex" (digitRun hex hex),
      lit "b" ++ capture "binary" (digitRun (digitIn '0' '1') (digitIn '0' '1')),
      lit "o" ++ capture "octal" (digitRun (digitIn '0' '7') (digitIn '0' '7'))],
    capture "sign" (opt (oneOf "+-"))
      ++ capture "whole" (alts [lit "0", digitRun (digitIn '1' '9') digit])
      ++ opt (lit "." ++ capture "places" run)
      ++ opt (oneOf "eE" ++ capture "powerSign" (opt (oneOf "+-")) ++ capture "power" run)]

/-- The number of a match. -/
def numberOf? (m : Match) : Option Value :=
  if m.has "hex" then some (.nat (ofDigits 16 (keptDigits m "hex")))
  else if m.has "binary" then some (.nat (ofDigits 2 (keptDigits m "binary")))
  else if m.has "octal" then some (.nat (ofDigits 8 (keptDigits m "octal")))
  else
    let negative := m.group? "sign" == some ['-']
    let whole := keptDigits m "whole"
    if m.has "places" || m.has "power" then
      let places := keptDigits m "places"
      let power := signed (m.group? "powerSign" == some ['-']) (decimal (keptDigits m "power"))
      let x := floatOf (decimal (whole ++ places)) (power - places.length)
      some (.number (.float (if negative then -x else x)))
    else if whole.length > maxDigits then none
    else some (.int (signed negative (decimal whole)))

/-- Words that are values. -/
def wordValues : List (String × Value) :=
  let infinity : Float := 1.0 / 0.0
  let nan : Float := 0.0 / 0.0
  [("inf", .number (.float infinity)), ("nan", .number (.float nan)),
    ("+inf", .number (.float infinity)), ("-inf", .number (.float (-infinity))),
    ("+nan", .number (.float nan)), ("-nan", .number (.float nan))]

/-- The value of the first of the words with which a text starts, and what follows. -/
def wordValue? (words : List (String × Value)) (text : List Char) : Option (Value × List Char) :=
  (words.find? fun w => startsWith text w.1.toList).map fun w => (w.2, text.drop w.1.length)

/-- A value that is neither a list nor a table, if one starts here. -/
def scalar? (text : List Char) : Option (Value × List Char) :=
  match text with
  | '"' :: _ | '\'' :: _ =>
    (string? text).map fun (chars, rest) => (.text (String.ofList chars), rest)
  | _ =>
    match wordValue? [("true", .bool true), ("false", .bool false)] text with
    | some found => some found
    | none =>
      match dayPattern.matchStart? text, timePattern.matchStart? text,
        numberPattern.matchStart? text with
      | some m, _, _ => (momentOf? m).map fun d => (.moment d, text.drop m.stop)
      | _, some m, _ => some (.moment (.clock (clockOf m)), text.drop m.stop)
      | _, _, some m => (numberOf? m).map fun v => (v, text.drop m.stop)
      | _, _, _ => wordValue? wordValues text

end CodeSurvey.Format.Toml
