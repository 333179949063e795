import CodeSurvey.Extract.Callable

/-!
# Layers

Services, controllers, middlewares and utility modules. Which layer a file belongs to shows in its
path; services, controllers and utilities are put together from what was already read out of it.
-/

namespace CodeSurvey.Extract

open Text Source Pattern

/-! ## Names -/

/-- A class and its name, wherever it stands. -/
def classNamePattern : Pattern :=
  edge ++ lit "class" ++ spaces1 ++ capture "name" identifier

/-- The name of a layer: that of the first class, or else the file's without its ending. -/
def layerName (v : View) : String :=
  match (classNamePattern.search? v.content).bind (·.group? "name") with
  | some name => String.ofList name
  | none => String.ofList (Files.stem v.path.toList)

/-! ## Services, controllers, utilities -/

/-- What paths of services hold. -/
def serviceMarkers : List String := ["service"]

/-- What paths of controllers hold. -/
def controllerMarkers : List String := ["controller"]

/-- What paths of utility modules hold. -/
def utilityMarkers : List String := ["util", "helper", "lib/"]

/-- The functions of a file, and then the methods of its classes. -/
def allMethods (functions : List Function) (classes : List Class) : List Function :=
  functions ++ classes.flatMap (·.methods)

/-- The service that a file is. -/
def services (v : View) (functions : List Function) (classes : List Class) : List Service :=
  [{ name := layerName v
     filePath := v.path
     methods := allMethods functions classes
     dependencies := imports v.content }]

/-- The controller that a file is. -/
def controllers (v : View) (routes : List Route) (functions : List Function)
    (classes : List Class) : List Controller :=
  [{ name := layerName v, filePath := v.path, routes, methods := allMethods functions classes }]

/-- The utility module that a file is, if it has functions. -/
def utilities (v : View) (functions : List Function) : List Utility :=
  if functions.isEmpty then []
  else [{ name := String.ofList (Files.stem v.path.toList), filePath := v.path, functions }]

/-! ## Middlewares -/

/-- What paths of middlewares hold. -/
def middlewareMarkers : List String := ["middleware"]

/-- The forms of middlewares: an exported function, or an exported constant up to its equals
sign. -/
def middlewareRules : List (Rule CallableForm) := [
  ⟨.declaration,
    lineStart ++ lit "export" ++ spaces1 ++ opt (lit "default" ++ spaces1)
      ++ opt (lit "async" ++ spaces1) ++ lit "function" ++ spaces1 ++ capture "name" identifier
      ++ spaces ++ generics ++ spaces ++ lit "("⟩,
  ⟨.expression,
    lineStart ++ lit "export" ++ spaces1 ++ words ["const", "let"] ++ spaces1
      ++ capture "name" identifier ++ spaces ++ opt (lit ":" ++ annotation) ++ lit "="⟩]

/-- The export that configures the middlewares of a file. -/
def middlewareConfigPattern : Pattern :=
  lineStart ++ lit "export" ++ spaces1 ++ lit "const" ++ spaces1 ++ lit "config" ++ spaces
    ++ lit "="

/-- The paths in that configuration. -/
def matcherPattern : Pattern :=
  lit "matcher" ++ spaces ++ lit ":" ++ spaces ++ capture "value" (alts [
    lit "[" ++ many (noneOf "]") ++ lit "]", lit "'" ++ many (noneOf "'") ++ lit "'",
    lit "\"" ++ many (noneOf "\"") ++ lit "\""])

/-- The paths that the middlewares of a file apply to, as they are written. -/
def matchedPaths? (limits : Limits) (content : List Char) : Option (List Char) := do
  let m ← middlewareConfigPattern.search? content
  let code := block content m.start m.stop blockFallback limits.block
  let value ← matcherPattern.search? code
  (value.group? "value").map squeeze

/-- Where the code of a middleware stops. -/
def middlewareStop (limits : Limits) (content : List Char) (s : Span CallableForm) : Nat :=
  match s.tag with
  | .declaration =>
    match readCallable limits content (s.stop - 1) .forbidden with
    | some c => c.stop
    | none => s.start + (block content s.start s.stop limits.fallback limits.block).length
  | _ => expressionEnd content s.stop limits.block

/-- The middlewares of a file, in source order. The configuration is none of them. -/
def middlewares (limits : Limits) (v : View) : List Middleware :=
  let appliesTo := (matchedPaths? limits v.content).map String.ofList
  let spans := (scan middlewareRules v.content).filter fun s =>
    s.group "name" != "config".toList
  spans.map fun s =>
    let piece := v.pieceBetween s.start (middlewareStop limits v.content s)
    { name := String.ofList (s.group "name")
      filePath := v.path
      lineStart := piece.first
      lineEnd := piece.last
      code := String.ofList (limits.keep "middleware" piece.code)
      appliesTo }

end CodeSurvey.Extract
