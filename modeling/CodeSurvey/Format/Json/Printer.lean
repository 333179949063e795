import CodeSurvey.Format.Value

/-!
# Printing JSON

Prints values in ASCII, on one line or with one entry to a line.
-/

namespace CodeSurvey.Format.Json

/-- Four digits in base sixteen. -/
def hexText (n : Nat) : List Char :=
  let digits := Nat.toDigits 16 n
  List.replicate (4 - digits.length) '0' ++ digits

/-- A code unit as an escape. -/
def unitText (n : Nat) : List Char :=
  '\\' :: 'u' :: hexText n

/-- The written form of a character: escapes for quotes, backslashes, controls and everything beyond
ASCII, with two escapes for a character beyond the first plane. -/
def charText (c : Char) : List Char :=
  match c with
  | '"' => ['\\', '"']
  | '\\' => ['\\', '\\']
  | '\n' => ['\\', 'n']
  | '\r' => ['\\', 'r']
  | '\t' => ['\\', 't']
  | '\x08' => ['\\', 'b']
  | '\x0c' => ['\\', 'f']
  | _ =>
    let n := c.toNat
    if 32 ≤ n && n < 127 then [c]
    else if n < 0x10000 then unitText n
    else
      let m := n - 0x10000
      unitText (0xD800 + m / 0x400) ++ unitText (0xDC00 + m % 0x400)

/-- A string in quotes. -/
def stringText (s : String) : String :=
  String.ofList ('"' :: s.toList.flatMap charText ++ ['"'])

/-- A number; the doubles that are no decimals have names. -/
def numberText : Number → String
  | .int n => intText n
  | .float x =>
    if x.isNaN then "NaN"
    else if x.isInf then (if x > 0 then "Infinity" else "-Infinity")
    else floatText x

/-- Items between brackets, each on a line of its own, or all on one line if there is no depth. -/
def enclose (opening closing : String) (depth : Option Nat) (items : List String) : String :=
  match items, depth with
  | [], _ => opening ++ closing
  | items, none => opening ++ ",".intercalate items ++ closing
  | items, some d =>
    let newline (n : Nat) := String.ofList ('\n' :: List.replicate (2 * n) ' ')
    opening ++ newline (d + 1) ++ ("," ++ newline (d + 1)).intercalate items ++ newline d ++ closing

mutual

/-- The written form of a value at a depth of nesting, or on one line. -/
def print (depth : Option Nat) : Value → String
  | .null => "null"
  | .bool b => if b then "true" else "false"
  | .number n => numberText n
  | .text s => stringText s
  | .list xs => enclose "[" "]" depth (printList (depth.map (· + 1)) xs)
  | .map entries => enclose "\x7b" "\x7d" depth (printEntries (depth.map (· + 1)) entries)
  | .moment _ => "null"

/-- The written forms of the elements of a list. -/
def printList (depth : Option Nat) : List Value → List String
  | [] => []
  | x :: rest => print depth x :: printList depth rest

/-- The written forms of the entries of a mapping. -/
def printEntries (depth : Option Nat) : List (String × Value) → List String
  | [] => []
  | (key, v) :: rest =>
    (stringText key ++ (if depth.isSome then ": " else ":") ++ print depth v)
      :: printEntries depth rest

end

/-- A value with one entry to a line, each level two blanks deeper. -/
def pretty (v : Value) : String :=
  print (some 0) v

/-- A value on one line. -/
def compact (v : Value) : String :=
  print none v

end CodeSurvey.Format.Json
