import CodeSurvey.Pattern.Matching
import CodeSurvey.Text.Lines

/-!
# Names in source text

Identifiers, called functions and imported modules.
-/

namespace CodeSurvey.Source

open Pattern

/-! ## Identifiers -/

/-- Characters that start an identifier. -/
def identifierStart : CharSet :=
  .unions [.letters, .char '_', .char '$']

/-- Characters that continue an identifier. -/
def identifierRest : CharSet :=
  .union .word (.char '$')

/-- An identifier. -/
def identifier : Pattern :=
  one identifierStart ++ many (one identifierRest)

/-- Type parameters on one line, if there are any. -/
def generics : Pattern :=
  opt (lit "<" ++ many (noneOf "()\x7b\x7d\n") ++ lit ">")

/-! ## Calls -/

/-- Words that look like called functions and are none. -/
def callKeywords : List String := [
  "if", "for", "while", "switch", "catch", "function", "return", "typeof",
  "await", "new", "super", "import", "void", "delete", "in", "of", "do",
  "else", "yield", "with", "case", "throw", "instanceof", "constructor"]

/-- Whether a name is one of those words. -/
def isCallKeyword (name : List Char) : Bool :=
  callKeywords.contains (String.ofList name)

/-- A name before an opening parenthesis. -/
def callPattern : Pattern :=
  notAfter identifierRest ++ capture "name" identifier ++ spaces ++ lit "("

/-- The names of called functions, in the order in which they are first seen. -/
def calls (code : List Char) : List String :=
  let names := (callPattern.findAll code).filterMap (·.group? "name")
  ((names.filter (!isCallKeyword ·)).map String.ofList).eraseDups

/-! ## Imports -/

/-- Quotes of module names. -/
def moduleQuote : Pattern :=
  oneOf "'\""

/-- A quoted module name. -/
def quotedModule : Pattern :=
  moduleQuote ++ capture "module" (many1 (noneOf "'\"\n")) ++ moduleQuote

/-- Names, braces, commas and blanks between the keyword and the module name. -/
def bindings : Pattern :=
  few1 (one (.unions [.word, .ofString "$*\x7b\x7d", .space, .char ','])) ++ spaces1 ++ lit "from"
    ++ spaces1

/-- The forms in which a module is imported. -/
def importPatterns : List Pattern := [
  lineStart ++ spaces ++ lit "import" ++ spaces1 ++ opt (lit "type" ++ spaces1) ++ opt bindings
    ++ quotedModule,
  lineStart ++ spaces ++ lit "export" ++ spaces1 ++ opt (lit "type" ++ spaces1)
    ++ few1 (one (.unions [.word, .ofString "$*\x7b\x7d", .space, .char ','])) ++ spaces1
    ++ lit "from" ++ spaces1 ++ quotedModule,
  edge ++ lit "require(" ++ spaces ++ quotedModule ++ spaces ++ lit ")",
  edge ++ lit "import(" ++ spaces ++ quotedModule ++ spaces ++ lit ")"]

/-- Whether the first of two placed texts comes first: by place, then by text. -/
def placedBefore (a b : Nat × String) : Bool :=
  a.1 < b.1 || (a.1 == b.1 && a.2 ≤ b.2)

/-- The names of imported modules, in the order in which they are first seen. -/
def imports (text : List Char) : List String :=
  -- One place can be matched by two of the forms; then the text decides their order.
  let found := importPatterns.flatMap fun p =>
    (p.findAll text).filterMap fun m => (m.group? "module").map fun name =>
      (m.start, String.ofList name)
  ((found.mergeSort placedBefore).map (·.2)).eraseDups

end CodeSurvey.Source
