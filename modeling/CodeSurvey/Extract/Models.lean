import CodeSurvey.Extract.Callable

/-!
# Data models

Models of schema files, and entity classes in files whose path says that they hold models.
-/

namespace CodeSurvey.Extract

open Text Source Pattern

/-! ## Schema files -/

/-- The header of a model, with its opening brace. -/
def modelRule : Rule Unit :=
  ⟨(), lineStart ++ many (oneOf " \t") ++ lit "model" ++ spaces1
    ++ capture "name" (many1 (one .word)) ++ spaces ++ lit "\x7b"⟩

/-- A field: its name, its type, and marks for lists and for optional fields. -/
def schemaFieldPattern : Pattern :=
  textStart ++ capture "name" (many1 (one .word)) ++ spaces1
    ++ capture "type" (many1 (one .word)) ++ opt (capture "list" (lit "[]"))
    ++ opt (capture "optional" (lit "?"))

/-- The name of the table. -/
def tablePattern : Pattern :=
  lit "@@map(" ++ spaces ++ opt (lit "name" ++ spaces ++ lit ":" ++ spaces) ++ lit "\""
    ++ capture "table" (many1 (noneOf "\"")) ++ lit "\"" ++ spaces ++ lit ")"

/-- What a line of a model says. -/
inductive SchemaLine where
  | field (field : Property) (type : String) (isRelation : Bool)
  | table (name : String)

/-- Reads a line of a model, given the names of all models. A field is a relation if its type is a
model or if it says so. -/
def schemaLine? (modelNames : List (List Char)) (raw : List Char) : Option SchemaLine :=
  let line := trim raw
  if line.isEmpty || startsWith line "//".toList then none
  else if startsWith line "@@".toList then
    ((tablePattern.matchStart? line).bind (·.group? "table")).map fun name =>
      .table (String.ofList name)
  else do
    let m ← schemaFieldPattern.matchStart? line
    let name ← m.group? "name"
    let type ← m.group? "type"
    some (.field {
        name := String.ofList name
        type := some (String.ofList type ++ (if m.has "list" then "[]" else ""))
        isOptional := m.has "optional" }
      (String.ofList type) (modelNames.contains type || contains line "@relation".toList))

/-- The fields that lines name. -/
def SchemaLine.field? : SchemaLine → Option Property
  | field f _ _ => some f
  | table _ => none

/-- The types that lines relate to. -/
def SchemaLine.relation? : SchemaLine → Option String
  | field _ type isRelation => if isRelation then some type else none
  | table _ => none

/-- The table that a line names. -/
def SchemaLine.table? : SchemaLine → Option String
  | field .. => none
  | table name => some name

/-- The model behind a header; its table is called like itself, in lower case, unless a line names
it. The last line that does counts. -/
def buildModel (limits : Limits) (v : View) (modelNames : List (List Char)) (s : Span Unit) :
    Model :=
  let code := block v.content s.start (s.stop - 1) blockFallback limits.block
  -- What follows the header's brace.
  let body := code.drop (s.stop - s.start)
  let body := if body.getLast? == some '}' then body.dropLast else body
  let lines := (breakLines body).filterMap (schemaLine? modelNames)
  let name := s.group "name"
  { name := String.ofList name
    filePath := v.path
    lineStart := v.lineAt s.start
    fields := lines.filterMap SchemaLine.field?
    relations := (lines.filterMap SchemaLine.relation?).eraseDups
    tableName := some (((lines.filterMap SchemaLine.table?).getLast?).getD
      (String.ofList (lower name)))
    origin := .schema }

/-- The models of a schema file, in source order. -/
def schemaModels (limits : Limits) (v : View) : List Model :=
  let spans := scan [modelRule] v.content
  spans.map (buildModel limits v (spans.map (·.group "name")))

/-! ## Entity classes -/

/-- What paths of files with entity classes hold. -/
def entityMarkers : List String := ["model", "entity", "entities"]

/-- A decorator that names the table of a class. -/
def entityPattern : Pattern :=
  lit "@" ++ words ["Entity", "Table"] ++ lit "(" ++ spaces
    ++ opt (lit "\x7b" ++ spaces ++ words ["name", "tableName"] ++ spaces ++ lit ":" ++ spaces)
    ++ oneOf "'\"" ++ capture "table" (many1 (noneOf "'\"")) ++ oneOf "'\""

/-- Types of fields that never name another entity. -/
def scalarTypes : List String := [
  "string", "number", "boolean", "bigint", "date", "any", "unknown", "object", "String", "Number",
  "Boolean", "Date", "Object", "Buffer", "Record", "Array", "Map", "Set", "Promise", "JSON",
  "Decimal"]

/-- What is around the name of a type: brackets of a list, and two generic types. -/
def typeWrapping : Pattern :=
  alts [lit "[]" ++ anchor .lastLineEnd, textStart ++ lit "Promise<", textStart ++ lit "Array<",
    lit ">" ++ anchor .lastLineEnd]

/-- The type that a field relates its class to. -/
def relation? (f : Property) : Option String := do
  let type ← f.type
  let base := typeWrapping.replaceAll (fun _ => []) (trim type.toList)
  let name := String.ofList base
  if base.head?.any isUpper && !scalarTypes.contains name then some name else none

/-- How many lines up to the header of a class are searched for its decorators. -/
def decoratorLines : Nat := 6

/-- The model that a class is. -/
def classModel (v : View) (c : Class) : Model :=
  let lines := lines v.content
  let above := join ['\n'] (between lines (c.lineStart - decoratorLines) c.lineStart)
  { name := c.name
    filePath := v.path
    lineStart := c.lineStart
    fields := c.properties
    relations := (c.properties.filterMap relation?).eraseDups
    tableName := ((entityPattern.search? above).bind (·.group? "table")).map String.ofList
    origin := .cls }

end CodeSurvey.Extract
