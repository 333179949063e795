import CodeSurvey.Source.TypeText

/-!
# Splitting at the top level

Splits lists of parameters, members and fields at separators that stand in no bracket and in no
string literal, and finds single characters there. Angle brackets count, except for the one that
ends an arrow.
-/

namespace CodeSurvey.Source

open Text

/-! ## Splitting -/

/-- Where a splitting scan stands: in code or a literal, or in one of the two kinds of comment,
whose characters are dropped. -/
inductive Region where
  | source (lit : Literal)
  | lineComment
  | blockComment
  deriving Repr, DecidableEq

/-- Whether a closing bracket or the end of a generic stands here; the first character of a text
never ends a generic. -/
def closesTopLevel (previous : Option Char) (c : Char) : Bool :=
  isCloser c || (c == '>' && previous.any (· != '='))

/-- The pieces of a text between separators at depth zero, where `piece` holds the characters (last
first) of the piece being read and `previous` the character before. Depth never falls below zero. -/
def pieces (separators : List Char) :
    Region → (previous : Option Char) → (depth : Nat) → (piece : List Char) → List Char →
      List (List Char)
  | _, _, _, piece, [] => [piece.reverse]
  | .lineComment, previous, depth, piece, c :: rest =>
    if c == '\n' then
      if depth == 0 && separators.contains c then
        piece.reverse :: pieces separators (.source .code) (some c) depth [] rest
      else pieces separators (.source .code) (some c) depth (c :: piece) rest
    -- A dropped character is not remembered as the one before, except for the comment's slash.
    else pieces separators .lineComment previous depth piece rest
  | .blockComment, _, depth, piece, '*' :: '/' :: rest =>
    pieces separators (.source .code) (some '/') depth piece rest
  | .blockComment, _, depth, piece, c :: rest =>
    pieces separators .blockComment (some c) depth piece rest
  | .source .code, _, depth, piece, '/' :: '/' :: rest =>
    pieces separators .lineComment (some '/') depth piece rest
  | .source .code, _, depth, piece, '/' :: '*' :: rest =>
    pieces separators .blockComment (some '*') depth piece rest
  | .source .code, previous, depth, piece, c :: rest =>
    if isQuote c then pieces separators (.source (.inside c)) (some c) depth (c :: piece) rest
    else if isTypeOpener c then
      pieces separators (.source .code) (some c) (depth + 1) (c :: piece) rest
    -- A closer too many leaves the depth at zero: subtraction of natural numbers stops there.
    else if closesTopLevel previous c then
      pieces separators (.source .code) (some c) (depth - 1) (c :: piece) rest
    else if depth == 0 && separators.contains c then
      piece.reverse :: pieces separators (.source .code) (some c) depth [] rest
    else pieces separators (.source .code) (some c) depth (c :: piece) rest
  | .source lit, _, depth, piece, c :: rest =>
    pieces separators (.source (lit.step c)) (some c) depth (c :: piece) rest

/-- The pieces of a text between separators at the top level, trimmed, without comments and without
blank pieces. -/
def splitTopLevel (text separators : List Char) : List (List Char) :=
  ((pieces separators (.source .code) none 0 [] text).map trim).filter (!·.isEmpty)

/-! ## Finding -/

/-- Whether an equals sign with these neighbours assigns, rather than being part of a comparison or
of an arrow. -/
def assigns (previous next : Option Char) : Bool :=
  !(next == some '=' || next == some '>'
    || previous == some '=' || previous == some '!' || previous == some '<' || previous == some '>')

/-- How far ahead the first `target` stands outside brackets and literals. A quote after a backslash
does not end a literal, however many backslashes there are. -/
def topLevelAhead? (target : Char) :
    (quote : Option Char) → (depth : Int) → (previous : Option Char) → List Char → Option Nat
  | _, _, _, [] => none
  | some q, depth, previous, c :: rest =>
    let open? := if c == q && previous != some '\\' then none else some q
    (topLevelAhead? target open? depth (some c) rest).map (· + 1)
  | none, depth, previous, c :: rest =>
    if isQuote c then (topLevelAhead? target (some c) depth (some c) rest).map (· + 1)
    else if isTypeOpener c || isCloser c || c == '>' then
      (topLevelAhead? target none (typeDepth previous depth c) (some c) rest).map (· + 1)
    else if c == target && depth ≤ 0 && (c != '=' || assigns previous rest.head?) then some 0
    else (topLevelAhead? target none depth (some c) rest).map (· + 1)

/-- The offset of the first `target` outside brackets and literals. -/
def findTopLevel? (text : List Char) (target : Char) : Option Nat :=
  topLevelAhead? target none 0 none text

end CodeSurvey.Source
