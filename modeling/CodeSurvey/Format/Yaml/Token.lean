import CodeSurvey.Format.Yaml.Scalar

/-!
# Tokens

A document as a row of tokens. Indentation becomes tokens that open and close blocks. A key on one
line is only known as such when its colon is reached; the token that marks it is then put in front
of it.
-/

namespace CodeSurvey.Format.Yaml

/-! ## Tokens -/

/-- The tag before a node: the handle that its beginning stands for, if it has one, and the rest. -/
structure TagText where
  handle : Option String
  suffix : String
  deriving Repr, DecidableEq

/-- A token. -/
inductive Token where
  /-- A directive: its name and its parameters. -/
  | directive (name : String) (parameters : List String)
  | documentStart
  | documentEnd
  | blockSequence
  | blockMapping
  | blockEnd
  | flowSequence
  | flowSequenceEnd
  | flowMapping
  | flowMappingEnd
  /-- A dash before an element. -/
  | dash
  | comma
  | key
  | value
  | reference (name : String)
  | anchor (name : String)
  | tag (t : TagText)
  | scalar (text : List Char) (isPlain : Bool)
  deriving Repr, DecidableEq

/-! ## States -/

/-- What may turn out to be a key: the place of its first token among the tokens, where it stands,
and whether nothing but a key may stand there. -/
structure PossibleKey where
  token : Nat
  index : Nat
  line : Nat
  column : Nat
  isRequired : Bool

/-- How far a document has been read. -/
structure State where
  cursor : Cursor
  tokens : Array Token := #[]
  /-- The column of the innermost block, then those around it. -/
  indents : List Int := [-1]
  /-- A key may start here. -/
  keyAllowed : Bool := true
  /-- What may turn out to be a key, for the innermost brackets and for what is around them; there
  is one place more than there are open brackets. -/
  possible : List (Option PossibleKey) := [none]

namespace State

/-- The column of the innermost block. -/
def indent (s : State) : Int :=
  s.indents.headD (-1)

/-- Whether brackets are open. -/
def inFlow (s : State) : Bool :=
  s.possible.length > 1

/-- Adds a token. -/
def push (s : State) (t : Token) : State :=
  { s with tokens := s.tokens.push t }

/-! ## Keys -/

/-- How long a key may be. -/
def longestKey : Nat :=
  1024

/-- Gives up what can no longer turn out to be a key: keys end on their line. -/
def dropStale (s : State) : Option State := do
  let fresh (k : PossibleKey) : Bool :=
    k.line == s.cursor.line && s.cursor.index - k.index ≤ longestKey
  let isLost (k : Option PossibleKey) : Bool := k.any fun k => k.isRequired && !fresh k
  if s.possible.any isLost then none
  else some { s with possible := s.possible.map (·.filter fresh) }

/-- Gives up the innermost possible key. -/
def dropKey (s : State) : Option State :=
  match s.possible with
  | some k :: rest => if k.isRequired then none else some { s with possible := none :: rest }
  | _ => some s

/-- Remembers that the next token may turn out to start a key. -/
def saveKey (s : State) : Option State :=
  if !s.keyAllowed then some s
  else do
    let s ← s.dropKey
    let c := s.cursor
    let k : PossibleKey :=
      ⟨s.tokens.size, c.index, c.line, c.column, !s.inFlow && s.indent == c.column⟩
    some { s with possible := some k :: s.possible.tail }

/-! ## Blocks -/

/-- Closes the blocks that are indented further than a column. -/
def unwindTo (s : State) (column : Int) : State :=
  if s.inFlow then s
  else
    -- The columns decrease from the innermost block outward, so those to close stand in front.
    let closed := s.indents.takeWhile fun i => column < i
    { s with
      indents := s.indents.drop closed.length
      tokens := s.tokens ++ (closed.map fun _ => Token.blockEnd).toArray }

/-- Opens a block at a column if that is indented further than the innermost block. -/
def openBlock (s : State) (column : Int) (t : Token) : State :=
  if s.indent < column then { s with indents := column :: s.indents, tokens := s.tokens.push t }
  else s

/-! ## Single tokens -/

/-- Blanks, comments and line breaks before a token. Outside brackets a key may start on a new
line. -/
def skipGaps : (fuel : Nat) → State → State
  | 0, s => s
  | fuel + 1, s =>
    let c := s.cursor.skipSpaces
    let c := if c.peek == '#' then c.skip fun d => !isBreakOrEnd d else c
    match c.lineBreak? with
    | some (_, c) => skipGaps fuel { s with cursor := c, keyAllowed := s.keyAllowed || !s.inFlow }
    | none => { s with cursor := c }

/-- Adds a token of as many characters. -/
def take (s : State) (length : Nat) (t : Token) : State :=
  { s.push t with cursor := s.cursor.advance length }

/-- A marker that parts documents. -/
def marker (s : State) (t : Token) : Option State := do
  let s ← (s.unwindTo (-1)).dropKey
  some { s.take 3 t with keyAllowed := false }

/-- Opens brackets. -/
def openFlow (s : State) (t : Token) : Option State := do
  let s ← s.saveKey
  some { s.take 1 t with possible := none :: s.possible, keyAllowed := true }

/-- Closes brackets. -/
def closeFlow (s : State) (t : Token) : Option State := do
  if !s.inFlow then none
  else
    let s ← s.dropKey
    some { s.take 1 t with possible := s.possible.tail, keyAllowed := false }

/-- A dash. -/
def dash (s : State) : Option State := do
  if !s.inFlow && !s.keyAllowed then none
  else
    let s := if s.inFlow then s else s.openBlock s.cursor.column .blockSequence
    let s ← { s with keyAllowed := true }.dropKey
    some (s.take 1 .dash)

/-- A question mark before a key. -/
def explicitKey (s : State) : Option State := do
  if !s.inFlow && !s.keyAllowed then none
  else
    let s := if s.inFlow then s else s.openBlock s.cursor.column .blockMapping
    let s ← { s with keyAllowed := !s.inFlow }.dropKey
    some (s.take 1 .key)

/-- A colon. If something before it may be a key, it is one. -/
def colon (s : State) : Option State :=
  match s.possible with
  | some k :: rest =>
    -- A mapping opens with its first key, which is known as a key only now.
    let opens := !s.inFlow && s.indent < k.column
    let marks : List Token := if opens then [.blockMapping, .key] else [.key]
    let tokens := s.tokens.toList.take k.token ++ marks ++ s.tokens.toList.drop k.token
    some (State.take { s with
      tokens := tokens.toArray
      indents := if opens then (k.column : Int) :: s.indents else s.indents
      possible := none :: rest
      keyAllowed := false } 1 .value)
  | _ => do
    if !s.inFlow && !s.keyAllowed then none
    else
      let s := if s.inFlow then s else s.openBlock s.cursor.column .blockMapping
      let s ← { s with keyAllowed := !s.inFlow }.dropKey
      some (s.take 1 .value)

/-! ## Names -/

/-- Characters of the names of anchors and handles. -/
def isNameChar (c : Char) : Bool :=
  c.isAlphanum || c == '-' || c == '_'

/-- The name of an anchor or an alias. -/
def named (s : State) (token : String → Token) : Option State := do
  let s ← s.saveKey
  let c := s.cursor.next
  let name := c.run isNameChar
  let c := c.skip isNameChar
  if name.isEmpty || !(isGap c.peek || "?:,]%@`".toList.contains c.peek || c.peek == '}') then none
  else some { s.push (token (String.ofList name)) with cursor := c, keyAllowed := false }

/-- Characters of tags. -/
def isTagChar (c : Char) : Bool :=
  c.isAlphanum || "-;/?:@&=+$,_.!~*'()[]%".toList.contains c

/-- The tag that stands here. A second exclamation mark ends the handle. -/
def tagText? (c : Cursor) : Option (TagText × Cursor) := do
  if c.peek 1 == '<' then
    let c := c.advance 2
    let suffix := c.run isTagChar
    let c := c.skip isTagChar
    if suffix.isEmpty || c.peek != '>' then none
    else some (⟨none, String.ofList suffix⟩, c.next)
  else if isGap (c.peek 1) then some (⟨none, "!"⟩, c.next)
  else
    let word := c.next.run fun d => d != ' ' && !isBreakOrEnd d
    let name := word.takeWhile (· != '!')
    let hasHandle := word.contains '!'
    if hasHandle && !name.all isNameChar then none
    else
      let c := c.advance (if hasHandle then name.length + 2 else 1)
      let suffix := c.run isTagChar
      if suffix.isEmpty then none
      else
        let handle := if hasHandle then "!" ++ String.ofList name ++ "!" else "!"
        some (⟨some handle, String.ofList suffix⟩, c.skip isTagChar)

/-- A tag. -/
def tag (s : State) : Option State := do
  let s ← s.saveKey
  let (t, c) ← tagText? s.cursor
  if c.peek == ' ' || isBreakOrEnd c.peek then
    some { s.push (.tag t) with cursor := c, keyAllowed := false }
  else none

/-- A directive, which takes a line. -/
def directive (s : State) : Option State := do
  let s ← (s.unwindTo (-1)).dropKey
  let line := s.cursor.next.run fun d => !isBreakOrEnd d
  let words := (Text.splitAt ' ' line).filter fun w => !w.isEmpty
  let words := words.takeWhile fun w => w.head? != some '#'
  match words with
  | name :: parameters =>
    if line.head? == some ' ' || !name.all isNameChar then none
    else some { s.push (.directive (String.ofList name) (parameters.map String.ofList)) with
      cursor := s.cursor.next.skip fun d => !isBreakOrEnd d
      keyAllowed := false }
  | [] => none

/-! ## Scalars -/

/-- A plain scalar. A key may start after it if it ends at the start of a line. -/
def plainScalar (s : State) : Option State := do
  let s ← s.saveKey
  let (text, crossed, c) := plain s.inFlow s.indent s.cursor
  some { s.push (.scalar text true) with cursor := c, keyAllowed := crossed }

/-- A quoted scalar. -/
def quotedScalar (s : State) : Option State := do
  let s ← s.saveKey
  let (text, c) ← quoted? s.cursor
  some { s.push (.scalar text false) with cursor := c, keyAllowed := false }

/-- A block scalar. -/
def blockScalar (s : State) : Option State := do
  -- A block scalar is no key, and a key may start after its last line.
  let s ← { s with keyAllowed := true }.dropKey
  let (text, c) ← block? s.indent s.cursor
  some { s.push (.scalar text false) with cursor := c }

/-- Characters with which no plain scalar starts. -/
def isIndicator (c : Char) : Bool :=
  flowMarks.contains c || "-?:#&*!|>'\"%@`".toList.contains c

/-- Whether a plain scalar starts here. -/
def plainStarts (s : State) : Bool :=
  let c := s.cursor.peek
  (!isGap c && !isIndicator c)
    || (!isGap (s.cursor.peek 1) && (c == '-' || (!s.inFlow && (c == '?' || c == ':'))))

/-! ## Rows of tokens -/

/-- The state after the next token, which starts here. -/
def nextToken (s : State) : Option State :=
  let c := s.cursor.peek
  let gapFollows := isGap (s.cursor.peek 1)
  let atMargin := s.cursor.column == 0
  if c == '%' && atMargin then s.directive
  else if atMargin && s.cursor.atMarker then
    s.marker (if c == '-' then .documentStart else .documentEnd)
  else if c == '[' then s.openFlow .flowSequence
  else if c == '{' then s.openFlow .flowMapping
  else if c == ']' then s.closeFlow .flowSequenceEnd
  else if c == '}' then s.closeFlow .flowMappingEnd
  else if c == ',' then do
    let s ← { s with keyAllowed := true }.dropKey
    some (s.take 1 .comma)
  else if c == '-' && gapFollows then s.dash
  else if c == '?' && (s.inFlow || gapFollows) then s.explicitKey
  else if c == ':' && (s.inFlow || gapFollows) then s.colon
  else if c == '*' then s.named .reference
  else if c == '&' then s.named .anchor
  else if c == '!' then s.tag
  else if (c == '|' || c == '>') && !s.inFlow then s.blockScalar
  else if c == '\'' || c == '"' then s.quotedScalar
  else if s.plainStarts then s.plainScalar
  else none

/-- The tokens of the rest of a document. -/
def tokensFrom : (fuel : Nat) → State → Option (List Token)
  | 0, _ => none
  | fuel + 1, s => do
    let s ← (skipGaps (s.cursor.rest.length + 1) s).dropStale
    let s := s.unwindTo s.cursor.column
    if s.cursor.rest.isEmpty then
      -- At the end open brackets no longer keep blocks from being closed.
      let s ← ({ s with possible := s.possible.take 1 }.unwindTo (-1)).dropKey
      some s.tokens.toList
    else tokensFrom fuel (← s.nextToken)

end State

/-- The tokens of a document. -/
def tokens? (text : List Char) : Option (List Token) :=
  let text := if text.head? == some '\uFEFF' then text.drop 1 else text
  if text.all isAllowed then State.tokensFrom (text.length + 1) { cursor := { rest := text } }
  else none

end CodeSurvey.Format.Yaml
