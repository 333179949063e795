import CodeSurvey.Extract.Callable

/-!
# Classes

Classes at the top level of a file, with the methods and fields that stand directly in their
bodies.
-/

namespace CodeSurvey.Extract

open Text Source Pattern

/-! ## Headers -/

/-- Type parameters after a name, as short as possible and on one line up to a brace. -/
def shortGenerics : Pattern :=
  opt (spaces ++ lit "<" ++ few (noneOf "\x7b\n") ++ lit ">")

/-- The header of a class, with its opening brace. -/
def classRule : Rule Unit :=
  ⟨(), lineStart
    ++ opt (capture "export" (lit "export" ++ spaces1 ++ opt (lit "default" ++ spaces1)))
    ++ opt (lit "declare" ++ spaces1) ++ opt (capture "abstract" (lit "abstract" ++ spaces1))
    ++ lit "class" ++ spaces1 ++ capture "name" identifier ++ shortGenerics
    ++ opt (spaces1 ++ lit "extends" ++ spaces1
      ++ capture "extends" (many1 (one (.union .word (.ofString "$.")))) ++ shortGenerics)
    ++ opt (spaces1 ++ lit "implements" ++ spaces1
      ++ capture "implements" (few1 (noneOf "\x7b")))
    ++ spaces ++ lit "\x7b"⟩

/-- The header of a method, up to its opening parenthesis. -/
def methodPattern : Pattern :=
  lineStart ++ many (oneOf " \t") ++ capture "head" (
    many (lit "@" ++ many1 (one (.union .word (.ofString "$.")))
      ++ opt (lit "(" ++ many (noneOf ")\n") ++ lit ")") ++ spaces1)
    ++ opt (words ["public", "private", "protected"] ++ spaces1) ++ opt (lit "static" ++ spaces1)
    ++ many (words ["override", "abstract"] ++ spaces1)
    ++ opt (capture "async" (lit "async" ++ spaces1))
    ++ opt (words ["get", "set"] ++ spaces1 ++ followedBy (.unions [.char '#', .word, .char '$']))
    ++ opt (lit "*") ++ spaces ++ capture "name" (opt (lit "#") ++ identifier) ++ spaces ++ generics
    ++ spaces ++ lit "(")

/-! ## Bodies -/

/-- The text without its last character if that is a closing brace. -/
def withoutBrace (code : List Char) : List Char :=
  if code.getLast? == some '}' then code.dropLast else code

/-- The matches at brace depth zero. `place` and `depth` tell how deep the text is there; every
brace counts. -/
def atDepthZero (content : List Char) :
    (place : Nat) → (depth : Int) → List Pattern.Match → List Pattern.Match
  | _, _, [] => []
  | place, depth, m :: rest =>
    let gap := between content place m.start
    -- The braces of the match itself are counted with the gap after it.
    let depth' := depth + count '{' gap - count '}' gap
    if depth' == 0 then m :: atDepthZero content m.start depth' rest
    else atDepthZero content m.start depth' rest

/-- The methods in the part of a file that is the body of a class. -/
def methods (limits : Limits) (v : View) (start stop : Nat) : List Function :=
  (atDepthZero v.content start 0 (methodPattern.findAllIn v.content start stop)).filterMap fun m =>
    let name := (m.group? "name").getD []
    if isCallKeyword name then none
    else (readCallable limits v.content (m.stop - 1) .forbidden).map fun c =>
      buildFunction limits v name ((m.span? "head").elim m.start (·.start)) c false (m.has "async")

/-! ## Classes -/

/-- The class behind a header. -/
def buildClass (limits : Limits) (v : View) (s : Span Unit) : Class :=
  let code := block v.content s.start (s.stop - 1) limits.fallback limits.block
  let innerStop := s.start + (withoutBrace code).length
  let piece := v.piece s.start code
  { name := String.ofList (s.group "name")
    filePath := v.path
    lineStart := piece.first
    lineEnd := piece.last
    code := String.ofList (limits.keep "class" code)
    methods := methods limits v s.stop innerStop
    properties := fields (between v.content s.stop innerStop) limits.properties
    base := (s.group? "extends").map String.ofList
    implemented := (splitTopLevel (s.group "implements") [',']).map String.ofList
    isExported := s.has "export"
    isAbstract := s.has "abstract" }

/-- The classes of a file, in source order. -/
def classes (limits : Limits) (v : View) : List Class :=
  (scan [classRule] v.content).map (buildClass limits v)

end CodeSurvey.Extract
