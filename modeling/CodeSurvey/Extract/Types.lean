import CodeSurvey.Extract.Classes

/-!
# Interfaces and type aliases
-/

namespace CodeSurvey.Extract

open Text Source Pattern

/-! ## Interfaces -/

/-- The header of an interface, with its opening brace. -/
def interfaceRule : Rule Unit :=
  ⟨(), lineStart
    ++ opt (capture "export" (lit "export" ++ spaces1 ++ opt (lit "default" ++ spaces1)))
    ++ opt (lit "declare" ++ spaces1) ++ lit "interface" ++ spaces1 ++ capture "name" identifier
    ++ shortGenerics
    ++ opt (spaces1 ++ lit "extends" ++ spaces1 ++ capture "extends" (few1 (noneOf "\x7b")))
    ++ spaces ++ lit "\x7b"⟩

/-- The interface behind a header. -/
def buildInterface (limits : Limits) (v : View) (s : Span Unit) : Interface :=
  let code := block v.content s.start (s.stop - 1) limits.fallback limits.block
  let innerStop := s.start + (withoutBrace code).length
  let piece := v.piece s.start code
  { name := String.ofList (s.group "name")
    filePath := v.path
    lineStart := piece.first
    lineEnd := piece.last
    code := String.ofList (limits.keep "interface" code)
    properties := members (between v.content s.stop innerStop) limits.properties
    bases := (splitTopLevel (s.group "extends") [',']).map String.ofList
    isExported := s.has "export" }

/-- The interfaces of a file, in source order. -/
def interfaces (limits : Limits) (v : View) : List Interface :=
  (scan [interfaceRule] v.content).map (buildInterface limits v)

/-! ## Type aliases -/

/-- The header of a type alias, with its equals sign. -/
def aliasRule : Rule Unit :=
  ⟨(), lineStart ++ opt (capture "export" (lit "export" ++ spaces1))
    ++ opt (lit "declare" ++ spaces1) ++ lit "type" ++ spaces1 ++ capture "name" identifier
    ++ opt (spaces ++ lit "<" ++ few (noneOf "=\n") ++ lit ">") ++ spaces ++ lit "="⟩

/-- The type alias behind a header, if something follows it. A semicolon at the end belongs to the
code, not to the definition. -/
def buildAlias? (limits : Limits) (v : View) (s : Span Unit) : Option TypeAlias :=
  let stop := definitionEnd v.content s.stop limits.definition
  let definition := trim (between v.content s.stop stop)
  if definition.isEmpty then none
  else
    let stop := if v.content[stop]? == some ';' then stop + 1 else stop
    let piece := v.piece s.start (between v.content s.start stop)
    some {
      name := String.ofList (s.group "name")
      filePath := v.path
      lineStart := piece.first
      lineEnd := piece.last
      code := String.ofList (limits.keep "type" piece.code)
      definition := String.ofList definition
      isExported := s.has "export" }

/-- The type aliases of a file, in source order. -/
def aliases (limits : Limits) (v : View) : List TypeAlias :=
  (scan [aliasRule] v.content).filterMap (buildAlias? limits v)

end CodeSurvey.Extract
