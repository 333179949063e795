import CodeSurvey.Extract.Callable

/-!
# Hooks and components

Exported functions whose names follow the conventions of hooks and of components. The props of a
component are looked up where its first parameter says.
-/

namespace CodeSurvey.Extract

open Text Source Pattern

/-! ## Exported callables -/

/-- The words before an exported constant, up to its name. -/
def exportedConstant (name : Pattern) : Pattern :=
  lineStart ++ lit "export" ++ spaces1 ++ lit "const" ++ spaces1 ++ capture "name" name ++ spaces

/-- The forms of exported callables with a name of some kind. -/
def exportedRules (name : Pattern) : List (Rule CallableForm) := [
  ⟨.declaration,
    lineStart ++ lit "export" ++ spaces1 ++ opt (lit "default" ++ spaces1)
      ++ opt (capture "async" (lit "async" ++ spaces1)) ++ lit "function" ++ spaces1
      ++ capture "name" name ++ spaces ++ generics ++ spaces ++ lit "("⟩,
  ⟨.arrow,
    exportedConstant name ++ opt (lit ":" ++ capture "annotation" annotation) ++ lit "=" ++ spaces
      ++ opt (capture "async" (lit "async" ++ spaces)) ++ generics ++ spaces ++ lit "("⟩,
  ⟨.bareArrow,
    exportedConstant name ++ lit "=" ++ spaces ++ opt (capture "async" (lit "async" ++ spaces1))
      ++ capture "param" identifier ++ spaces ++ lit "=>"⟩,
  ⟨.expression,
    exportedConstant name ++ opt (lit ":" ++ capture "annotation" annotation) ++ lit "=" ++ spaces
      ++ opt (capture "async" (lit "async" ++ spaces1)) ++ lit "function" ++ edge ++ spaces
      ++ opt identifier ++ spaces ++ generics ++ spaces ++ lit "("⟩]

/-- The spans of exported callables and what is read behind them. -/
def exportedCallables (limits : Limits) (content : List Char) (name : Pattern) :
    List (Span CallableForm × Callable) :=
  (scan (exportedRules name) content).filterMap fun s =>
    (callableOf limits content s).map fun c => (s, c)

/-! ## Hooks -/

/-- Names of hooks: the word "use" and a capital letter or a digit. -/
def hookName : Pattern :=
  lit "use" ++ one (.union (.range 'A' 'Z') (.range '0' '9')) ++ many (one identifierRest)

/-- A call of a built-in hook. -/
def builtinHookPattern : Pattern :=
  edge ++ capture "hook" (lit "use" ++ words ["State", "Effect", "LayoutEffect", "InsertionEffect",
    "Memo", "Callback", "Ref", "Context", "Reducer", "Transition", "DeferredValue", "Id",
    "SyncExternalStore", "ImperativeHandle", "DebugValue", "Optimistic", "ActionState",
    "FormStatus"]) ++ spaces ++ lit "("

/-- The texts kept under a key by the matches of a pattern, each once. -/
def distinctGroups (p : Pattern) (key : String) (text : List Char) : List String :=
  (((p.findAll text).filterMap (·.group? key)).map String.ofList).eraseDups

/-- The hooks of a file, in source order. -/
def hooks (limits : Limits) (v : View) : List Hook :=
  (exportedCallables limits v.content hookName).map fun (s, c) =>
    let piece := v.pieceBetween s.start c.stop
    { name := String.ofList (s.group "name")
      filePath := v.path
      lineStart := piece.first
      lineEnd := piece.last
      code := String.ofList (limits.keep "hook" piece.code)
      dependencies := distinctGroups builtinHookPattern "hook"
        (between v.content c.bodyStart c.stop) }

/-! ## Props -/

/-- The interfaces and type aliases in which the types of props are looked up. -/
structure DeclaredTypes where
  interfaces : List Interface
  aliases : List TypeAlias

/-- A type that only wraps another. -/
def wrappedType : Pattern :=
  textStart ++ words ["Readonly", "React.PropsWithChildren", "PropsWithChildren"] ++ lit "<"
    ++ capture "type" (many inLine) ++ lit ">" ++ anchor .lastLineEnd

/-- The members of an object type that starts with its brace. -/
def inlineProps (limits : Limits) (type : List Char) : List Property :=
  -- A type that was cut off is read as far as it goes.
  let inner := match closing? type 0 (type.length + 1) with
    | some close => between type 1 close
    | none => type.drop 1
  members inner limits.properties

/-- The members of a type: those written in it, or those of the interface or else of the alias for
an object type that it names. -/
def declaredProps (limits : Limits) (types : DeclaredTypes) (type : List Char) : List Property :=
  let type := trim type
  if type.head? == some '{' then inlineProps limits type
  else
    let name := String.ofList
      (trim (wrappedType.replaceAll (fun m => (m.group? "type").getD []) type))
    match types.interfaces.find? (·.name == name) with
    | some i => i.properties
    | none =>
      let isObject (a : TypeAlias) : Bool := a.definition.toList.head? == some '{'
      match types.aliases.find? fun a => a.name == name && isObject a with
      | some a => inlineProps limits a.definition.toList
      | none => []

/-- A name bound by a pattern of props, and whether it has a default. -/
def boundName? (text : List Char) : Option (String × Bool) :=
  if startsWith text "...".toList then none
  else
    let equals := findTopLevel? text '='
    let key := text.take (equals.getD text.length)
    let name := trim (key.take ((findTopLevel? key ':').getD key.length))
    if (identifier.matchAll? name).isSome then some (String.ofList name, equals.isSome) else none

/-- The names bound by a pattern of props, without the rest of them. -/
def boundNames (inner : List Char) : List (String × Bool) :=
  (splitTopLevel inner [',']).filterMap boundName?

/-- The props with these names: as declared, the last declaration of a name counting, or else
optional exactly if the name has a default. -/
def namedProps (declared : List Property) (names : List (String × Bool)) : List Property :=
  names.map fun (name, optional) =>
    (declared.reverse.find? (·.name == name)).getD { name, isOptional := optional }

/-- The props of a component, from the text of its parameters and from the type that its own type
names, if there is one. -/
def props (limits : Limits) (types : DeclaredTypes) (params : List Char)
    (annotated : Option (List Char)) : List Property :=
  let declared (type : Option (List Char)) : List Property :=
    match type with
    | some type => if type.isEmpty then [] else declaredProps limits types type
    | none => []
  match splitTopLevel params [','] with
  | [] => declared annotated
  | first :: _ =>
    if first.head? == some '{' then
      match closing? first 0 (first.length + 1) with
      | none => []
      | some close =>
        let rest := trim (first.drop (close + 1))
        let type := if rest.head? == some ':' then some (trim (rest.drop 1)) else annotated
        namedProps (declared type) (boundNames (between first 1 close))
    else
      match findTopLevel? first ':' with
      | some colon => declared (some (trim (first.drop (colon + 1))))
      | none => declared annotated

/-! ## Components -/

/-- Names of components: a capital letter first. -/
def componentName : Pattern :=
  one (.range 'A' 'Z') ++ many (one identifierRest)

/-- A call of any hook. -/
def anyHookPattern : Pattern :=
  notAfter (.union .word (.ofString "$."))
    ++ capture "hook" (lit "use" ++ one (.range 'A' 'Z') ++ many (one .word)) ++ spaces ++ lit "("

/-- The line that makes a file run in the browser. -/
def clientPattern : Pattern :=
  textStart ++ spaces ++ oneOf "'\"" ++ lit "use client" ++ oneOf "'\""

/-- The type of a function component and the type of its props. -/
def componentTypePattern : Pattern :=
  edge ++ opt (lit "React.") ++ words ["FC", "FunctionComponent", "VFC"] ++ spaces ++ lit "<"
    ++ spaces ++ capture "props" (many1 (one (.union .word (.ofString "$."))))

/-- The components of a file, in source order. -/
def components (limits : Limits) (types : DeclaredTypes) (v : View) : List Component :=
  let isClient := (clientPattern.matchStart? v.content).isSome
  (exportedCallables limits v.content componentName).map fun (s, c) =>
    let piece := v.pieceBetween s.start c.stop
    let annotated := ((s.group? "annotation").bind componentTypePattern.search?).bind
      (·.group? "props")
    { name := String.ofList (s.group "name")
      filePath := v.path
      lineStart := piece.first
      lineEnd := piece.last
      code := String.ofList (limits.keep "component" piece.code)
      props := props limits types c.params annotated
      hooks := distinctGroups anyHookPattern "hook" (between v.content c.bodyStart c.stop)
      isClient }

end CodeSurvey.Extract
