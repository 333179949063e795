import CodeSurvey.Format.Yaml.Node
import CodeSurvey.Format.Fault
import CodeSurvey.Format.WholeNumber

/-!
# Values of scalars

What the text of a plain scalar means: nothing, a truth value, a number or a moment where it is
written as one, and otherwise the text itself.
-/

namespace CodeSurvey.Format.Yaml

open Pattern

/-! ## Errors -/

/-- Why a text cannot be read. -/
inductive ReadError where
  /-- It is no document. -/
  | malformed
  /-- One of its scalars is not what it is written as. -/
  | badScalar (fault : Fault)
  deriving Repr, DecidableEq

/-! ## Kinds -/

/-- What a scalar is. -/
inductive ScalarKind where
  | text
  | null
  | bool
  | int
  | float
  | moment
  /-- Mappings whose entries are merged into the one around the key. -/
  | mergeKey
  /-- The sign that stands for the value of a mapping. -/
  | valueKey
  deriving Repr, DecidableEq

/-- The kinds that a tag can name. -/
def kindNames : List (String × ScalarKind) := [
  ("str", .text), ("null", .null), ("bool", .bool), ("int", .int), ("float", .float),
  ("timestamp", .moment), ("merge", .mergeKey), ("value", .valueKey)]

/-- The words for nothing. -/
def nullWords : List String :=
  ["~", "null", "Null", "NULL", ""]

/-- The words for truth values, in lower case. -/
def boolWords : List (String × Bool) := [
  ("yes", true), ("no", false), ("true", true), ("false", false), ("on", true), ("off", false)]

/-- A word in lower case, with a capital, and in capitals. -/
def spellings (word : String) : List String :=
  [word, word.capitalize, word.toUpper]

/-- A decimal digit or an underscore. -/
def digitOrGap : Pattern :=
  one (.union (.range '0' '9') (.char '_'))

/-- A sign, if there is one. -/
def signs : Pattern :=
  capture "sign" (opt (oneOf "+-"))

/-- A digit that is not zero, then digits and underscores. -/
def positive : Pattern :=
  one (.range '1' '9') ++ many digitOrGap

/-- Minutes or seconds after a colon. -/
def sixtieth : Pattern :=
  lit ":" ++ opt (one (.range '0' '5')) ++ digit

/-- A whole number. -/
def intPattern : Pattern :=
  signs ++ alts [
    lit "0b" ++ capture "binary" (many1 (oneOf "01_")),
    capture "octal" (lit "0" ++ many1 (one (.union (.range '0' '7') (.char '_')))),
    capture "decimal" (alts [lit "0", positive]),
    lit "0x" ++ capture "hex" (many1 (one (.unions [.range '0' '9', .range 'a' 'f', .range 'A' 'F',
      .char '_']))),
    capture "sixties" (positive ++ many1 sixtieth)]

/-- A number with a point. -/
def floatPattern : Pattern :=
  let power := opt (oneOf "eE" ++ capture "power" (oneOf "+-" ++ many1 digit))
  let whole := digit ++ many digitOrGap
  alts [
    signs ++ capture "whole" whole ++ lit "." ++ capture "places" (many digitOrGap) ++ power,
    lit "." ++ capture "places" whole ++ power,
    signs ++ capture "sixties" (whole ++ many1 sixtieth ++ lit "." ++ many digitOrGap),
    signs ++ lit "." ++ capture "infinite" (words ["inf", "Inf", "INF"]),
    lit "." ++ capture "none" (words ["nan", "NaN", "NAN"])]

/-- A day, or a day with a time of day. -/
def momentPattern : Pattern :=
  let two := digit ++ digit
  let oneOrTwo := digit ++ opt digit
  let year := capture "year" (two ++ two) ++ lit "-"
  alts [
    year ++ capture "month" two ++ lit "-" ++ capture "day" two,
    year ++ capture "month" oneOrTwo ++ lit "-" ++ capture "day" oneOrTwo
      ++ alts [oneOf "Tt", many1 (oneOf " \t")]
      ++ capture "hour" oneOrTwo ++ lit ":" ++ capture "minute" two ++ lit ":"
      ++ capture "second" two ++ opt (lit "." ++ capture "fraction" (many digit))
      ++ opt (many (oneOf " \t") ++ alts [capture "universal" (lit "Z"),
        capture "zoneSign" (oneOf "+-") ++ capture "zoneHour" oneOrTwo
          ++ opt (lit ":" ++ capture "zoneMinute" two)])]

/-- What a plain scalar with this text is. -/
def kindOf (text : List Char) : ScalarKind :=
  let word := String.ofList text
  if boolWords.any fun w => (spellings w.1).contains word then .bool
  else if (floatPattern.matchAll? text).isSome then .float
  else if (intPattern.matchAll? text).isSome then .int
  else if word == "<<" then .mergeKey
  else if nullWords.contains word then .null
  else if (momentPattern.matchAll? text).isSome then .moment
  else if word == "=" then .valueKey
  else .text

/-! ## Numbers -/

/-- The numbers between colons. -/
def sixties (text : List Char) : List (List Char) :=
  Text.splitAt ':' text

/-- The number that the digits kept under a key write in a base; there has to be one. -/
def basedNumber (m : Match) (base : Nat) (key : String) : Except ReadError Nat :=
  match keptDigits m key with
  | [] => .error (.badScalar (.notWhole base ""))
  | digits => .ok (ofDigits base digits)

/-- A whole number. -/
def intOf (m : Match) : Except ReadError Int := do
  let size ←
    if m.has "binary" then basedNumber m 2 "binary"
    else if m.has "octal" then basedNumber m 8 "octal"
    else if m.has "hex" then basedNumber m 16 "hex"
    else if m.has "sixties" then
      pure ((sixties (keptDigits m "sixties")).foldl (fun n part => n * 60 + decimal part) 0)
    else basedNumber m 10 "decimal"
  pure (signed (m.group? "sign" == some ['-']) size)

/-- A number with digits before and after a point. -/
def pointed (whole places : List Char) (power : Int) : Float :=
  floatOf (decimal (whole ++ places)) (power - places.length)

/-- The exponent of a number. -/
def powerOf (text : List Char) : Int :=
  match text with
  | '-' :: digits => -(decimal digits : Int)
  | _ :: digits => decimal digits
  | [] => 0

/-- A double of parts of sixty, the last of which may have a point. -/
def sixtiesFloat (text : List Char) : Float :=
  let part (t : List Char) : Float :=
    let whole := Text.beforeFirst '.' t
    pointed whole (t.drop (whole.length + 1)) 0
  let step (acc : Float × Float) (t : List Char) := (acc.1 + part t * acc.2, acc.2 * 60)
  ((sixties text).reverse.foldl step (0, 1)).1

/-- A number with a point. -/
def floatValue (m : Match) : Float :=
  let size : Float :=
    if m.has "none" then 0.0 / 0.0
    else if m.has "infinite" then 1.0 / 0.0
    else if m.has "sixties" then sixtiesFloat (keptDigits m "sixties")
    else pointed (keptDigits m "whole") (keptDigits m "places") (powerOf (keptDigits m "power"))
  if m.group? "sign" == some ['-'] then -size else size

/-! ## Moments -/

/-- A moment. The first part that is out of range is told. -/
def momentOf (m : Match) : Except ReadError Moment := do
  let year := keptNumber m "year"
  let month := keptNumber m "month"
  if year == 0 then throw (.badScalar (.noMoment (.year 0)))
  if month < 1 || 12 < month then throw (.badScalar (.noMoment .month))
  let some d := day? year month (keptNumber m "day") | throw (.badScalar (.noMoment .day))
  if !m.has "hour" then return .day d
  let hour := keptNumber m "hour"
  let minute := keptNumber m "minute"
  let second := keptNumber m "second"
  if 23 < hour then throw (.badScalar (.noMoment .hour))
  if 59 < minute then throw (.badScalar (.noMoment .minute))
  if 59 < second then throw (.badScalar (.noMoment .second))
  let offset :=
    if m.has "universal" then some 0
    else (m.group? "zoneSign").map fun sign =>
      signed (sign == ['-']) (keptNumber m "zoneHour" * 3600 + keptNumber m "zoneMinute" * 60)
  return .both d ⟨hour, minute, second, microseconds ((m.group? "fraction").getD [])⟩ offset

/-! ## Scalars -/

/-- The kind of a scalar with a tag. -/
def scalarKind? (tag : Tag) (text : List Char) : Option ScalarKind :=
  match tag with
  | .byText => some (kindOf text)
  | .byShape => some .text
  | .named name =>
    (kindNames.find? fun k => standardTags ++ k.1 == name).map (·.2)

/-- The value of a scalar. What merges mappings has no value of its own. -/
def scalarValue (tag : Tag) (text : List Char) : Except ReadError Value :=
  let word := String.ofList text
  match scalarKind? tag text with
  | some .text => .ok (.text word)
  | some .null => .ok .null
  | some .bool =>
    match boolWords.lookup (String.ofList (Text.lower text)) with
    | some b => .ok (.bool b)
    | none => .error .malformed
  | some .int =>
    match intPattern.matchAll? text with
    | some m => (intOf m).map .int
    | none => .error (.badScalar (.notWhole 10 word))
  | some .float =>
    match floatPattern.matchAll? text, wholeNumber? text with
    | some m, _ => .ok (.number (.float (floatValue m)))
    | none, some n => .ok (.number (.float (Number.floatOfInt n)))
    | none, none => .error .malformed
  | some .moment =>
    match momentPattern.matchAll? text with
    | some m => (momentOf m).map .moment
    | none => .error .malformed
  | _ => .error .malformed

end CodeSurvey.Format.Yaml
