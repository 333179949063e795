import CodeSurvey.Extract.Span
import CodeSurvey.Extract.View
import CodeSurvey.Metrics.Complexity

/-!
# Callables

Anything with parameters and a body: functions, arrow functions, methods, handlers. A callable is
read from its opening parenthesis; what has no body (an overload, a plain expression in
parentheses) is none.
-/

namespace CodeSurvey.Extract

open Text Source Pattern

/-! ## Reading -/

/-- A callable in a text: its parameters and where they stop, its return type, and where its body
starts and stops. -/
structure Callable where
  params : List Char
  paramsStop : Nat
  returnType : Option (List Char)
  bodyStart : Nat
  stop : Nat

/-- Whether an arrow may, has to, or must not stand before the body. -/
inductive ArrowUse where
  | allowed
  | required
  | forbidden
  deriving DecidableEq

/-- The offset where a block that opens at `start` stops. -/
def blockStop (limits : Limits) (content : List Char) (start : Nat) : Nat :=
  start + (block content start start blockFallback limits.block).length

/-- The body after an arrow: a block, or an expression. Gives its start and its stop. -/
def arrowBody (limits : Limits) (content : List Char) (afterArrow : Nat) : Nat × Nat :=
  let body := skipBlanks content afterArrow
  if content[body]? == some '{' then (body, blockStop limits content body)
  else (body, expressionEnd content body limits.block)

/-- Reads the callable whose parameters open at an offset. -/
def readCallable (limits : Limits) (content : List Char) (paren : Nat) (arrow : ArrowUse) :
    Option Callable := do
  let close ← closing? content paren limits.signature
  let params := between content (paren + 1) close
  let (type, index) := returnType content (close + 1) limits.signature
  let index := skipBlanks content index
  if startsWith (content.drop index) ['=', '>'] then
    if arrow == .forbidden then none
    else
      let (start, stop) := arrowBody limits content (index + 2)
      some ⟨params, close + 1, type, start, stop⟩
  else if arrow == .required then none
  else if content[index]? == some '{' then
    some ⟨params, close + 1, type, index, blockStop limits content index⟩
  else none

/-- A function of the file that starts at an offset. Everything but the kept code is worked out
from the whole code. -/
def buildFunction (limits : Limits) (v : View) (name : List Char) (start : Nat) (c : Callable)
    (exported isAsync : Bool) : Function :=
  let piece := v.pieceBetween start c.stop
  { name := String.ofList name
    filePath := v.path
    lineStart := piece.first
    lineEnd := piece.last
    code := String.ofList (limits.keep "function" piece.code)
    parameters := parameters c.params
    returnType := c.returnType.map String.ofList
    isAsync
    isExported := exported
    complexity := Metrics.complexity piece.code
    callsTo := calls (between v.content c.paramsStop c.stop) }

/-! ## Forms -/

/-- The forms in which a callable is declared. -/
inductive CallableForm where
  | declaration
  /-- An arrow function with parameters in parentheses. -/
  | arrow
  /-- An arrow function with one bare parameter. -/
  | bareArrow
  | expression
  deriving DecidableEq

/-- The type that a name is declared with, on one line and without an equals sign. -/
def annotation : Pattern :=
  many1 (noneOf "=\n")

/-- Reads the callable behind a rule of one of these forms. -/
def callableOf (limits : Limits) (content : List Char) (s : Span CallableForm) :
    Option Callable :=
  match s.tag with
  | .bareArrow =>
    let (start, stop) := arrowBody limits content s.stop
    -- A bare parameter stops before the two characters of the arrow.
    some ⟨s.group "param", s.stop - 2, none, start, stop⟩
  | .arrow => readCallable limits content (s.stop - 1) .required
  | .declaration | .expression => readCallable limits content (s.stop - 1) .forbidden

end CodeSurvey.Extract
