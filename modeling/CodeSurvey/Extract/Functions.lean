import CodeSurvey.Extract.Callable

/-!
# Functions

Functions at the top level of a file: declarations, and arrow functions and function expressions
that are bound to a name. All forms begin at the start of a line.
-/

namespace CodeSurvey.Extract

open Source Pattern

/-- A declared function, up to its parameters. -/
def declarationHeader : Pattern :=
  lineStart ++ seqs [
    opt (capture "export" (lit "export" ++ spaces1 ++ opt (lit "default" ++ spaces1))),
    opt (lit "declare" ++ spaces1), opt (capture "async" (lit "async" ++ spaces1)),
    lit "function", spaces, opt (lit "*"), spaces, capture "name" identifier, spaces, generics,
    spaces, lit "("]

/-- The words before a bound function, up to its name. -/
def bindingStart : Pattern :=
  lineStart ++ seqs [
    opt (capture "export" (lit "export" ++ spaces1)), words ["const", "let", "var"], spaces1,
    capture "name" identifier, spaces]

/-- A bound arrow function, up to its parameters. -/
def arrowHeader : Pattern :=
  bindingStart ++ seqs [
    opt (lit ":" ++ annotation), lit "=", spaces, opt (capture "async" (lit "async" ++ spaces)),
    generics, spaces, lit "("]

/-- A bound arrow function with one bare parameter, up to its body. -/
def bareArrowHeader : Pattern :=
  bindingStart ++ seqs [
    lit "=", spaces, opt (capture "async" (lit "async" ++ spaces1)), capture "param" identifier,
    spaces, lit "=>"]

/-- A bound function expression, up to its parameters. -/
def expressionHeader : Pattern :=
  bindingStart ++ seqs [
    opt (lit ":" ++ annotation), lit "=", spaces, opt (capture "async" (lit "async" ++ spaces1)),
    lit "function", edge, spaces, opt (lit "*"), spaces, opt identifier, spaces, generics, spaces,
    lit "("]

/-- The forms of functions. -/
def functionRules : List (Rule CallableForm) := [
  ⟨.declaration, declarationHeader⟩, ⟨.arrow, arrowHeader⟩, ⟨.bareArrow, bareArrowHeader⟩,
  ⟨.expression, expressionHeader⟩]

/-- The functions of a file, in source order. -/
def functions (limits : Limits) (v : View) : List Function :=
  (scan functionRules v.content).filterMap fun s =>
    (callableOf limits v.content s).map fun c =>
      buildFunction limits v (s.group "name") s.start c (s.has "export") (s.has "async")

end CodeSurvey.Extract
