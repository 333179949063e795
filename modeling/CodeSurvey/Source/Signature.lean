import CodeSurvey.Entity.Basic
import CodeSurvey.Source.Name
import CodeSurvey.Source.TopLevel

/-!
# Parameters and members

Reads parameter lists, the members of interfaces and the fields of classes.
-/

namespace CodeSurvey.Source

open Text Pattern

/-- The text as a string, if there is any. -/
def nonempty? (text : List Char) : Option String :=
  if text.isEmpty then none else some (String.ofList text)

/-! ## Parameters -/

/-- A decorator and its arguments. -/
def decorator : Pattern :=
  lit "@" ++ many1 (one (.union .word (.ofString "$.")))
    ++ opt (lit "(" ++ many (noneOf ")") ++ lit ")")

/-- Decorators and modifiers before a parameter. -/
def parameterModifiers : Pattern :=
  textStart ++ many (decorator ++ spaces)
    ++ many (words ["public", "private", "protected", "readonly", "override"] ++ spaces1)

/-- Splits a parameter into its name with a question mark perhaps, its type and its default. The
first colon outside brackets starts the type, unless the default has begun before. -/
def parameterParts (text : List Char) : List Char × List Char × List Char :=
  let equals := findTopLevel? text '='
  let head := text.take (equals.getD text.length)
  let default := match equals with
    | some e => trim (text.drop (e + 1))
    | none => []
  match findTopLevel? text ':' with
  | some colon =>
    -- A colon after the equals sign belongs to the default.
    if colon < equals.getD text.length then (head.take colon, head.drop (colon + 1), default)
    else (head, [], default)
  | none => (head, [], default)

/-- Reads one parameter, if it has a name. -/
def parameter? (text : List Char) : Option Parameter :=
  let text := parameterModifiers.replaceAll (fun _ => []) (squeeze text)
  if text.isEmpty then none
  else
    let (head, type, default) := parameterParts text
    let head := trim head
    let name := trim (dropEndWhile (· == '?') head)
    if name.isEmpty then none
    else some {
      name := String.ofList name
      type := nonempty? (trim type)
      isOptional := head.getLast? == some '?' || !default.isEmpty
      defaultValue := nonempty? default }

/-- Reads the text between the parentheses of a signature: one parameter for each part that has a
name. -/
def parameters (text : List Char) : List Parameter :=
  (splitTopLevel text [',']).filterMap parameter?

/-! ## Limits on lists -/

/-- As many elements as a limit allows, but at least one; zero means no limit. -/
def limited (limit : Int) (xs : List α) : List α :=
  if limit == 0 then xs else xs.take (max 1 limit.toNat)

/-! ## Members of interfaces -/

/-- A member: its name, perhaps quoted, a question mark perhaps, and its type. -/
def memberPattern : Pattern :=
  opt (lit "readonly" ++ spaces1)
    ++ capture "name" (alts [identifier, lit "'" ++ many1 (noneOf "'") ++ lit "'",
      lit "\"" ++ many1 (noneOf "\"") ++ lit "\""])
    ++ opt (capture "optional" (lit "?")) ++ spaces ++ lit ":" ++ spaces
    ++ capture "type" (many1 anyChar)

/-- Reads one member, if the text has the form of one. -/
def member? (text : List Char) : Option Property := do
  let m ← memberPattern.matchAll? text
  let name ← m.group? "name"
  let type ← m.group? "type"
  let quote (c : Char) : Bool := c == '\'' || c == '"'
  some {
    name := String.ofList (dropEndWhile quote (name.dropWhile quote))
    type := some (String.ofList (squeeze type))
    isOptional := m.has "optional" }

/-- Reads the body of an interface or of an object type: one property for each part that has the
form of a member. -/
def members (body : List Char) (limit : Int := 0) : List Property :=
  limited limit ((splitTopLevel body [';', ',', '\n']).filterMap member?)

/-! ## Fields of classes -/

/-- A field: modifiers, name, marker, type and initial value. -/
def fieldPattern : Pattern :=
  many (decorator ++ spaces1)
    ++ capture "modifiers" (many (words ["public", "private", "protected", "static", "readonly",
      "declare", "override", "abstract", "accessor"] ++ spaces1))
    ++ capture "name" (opt (lit "#") ++ identifier) ++ opt (capture "marker" (oneOf "?!")) ++ spaces
    ++ opt (lit ":" ++ spaces ++ capture "type" (few1 (noneOf "="))) ++ spaces
    ++ opt (lit "=" ++ spaces ++ capture "default" (many1 anyChar))

/-- Reads one field, if the text has the form of one and its name is no keyword. -/
def field? (text : List Char) : Option Property := do
  let m ← fieldPattern.matchAll? text
  let name ← m.group? "name"
  if isCallKeyword name then none
  else some {
    name := String.ofList name
    type := ((m.group? "type").filter (!·.isEmpty)).map (String.ofList <| squeeze ·)
    isOptional := m.group? "marker" == some ['?']
    isPrivate :=
      contains ((m.group? "modifiers").getD []) "private".toList || name.head? == some '#' }

/-- Reads the fields in the body of a class: one property for each part that has the form of a
field. -/
def fields (body : List Char) (limit : Int := 0) : List Property :=
  limited limit ((splitTopLevel body [';', '\n']).filterMap field?)

end CodeSurvey.Source
