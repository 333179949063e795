import CodeSurvey.Format.Yaml.Token

/-!
# Nodes

A document as a tree: scalars, sequences and mappings with their tags. Aliases are replaced by what
they stand for.
-/

namespace CodeSurvey.Format.Yaml

/-! ## Tags -/

/-- What says of which kind a node is. -/
inductive Tag where
  /-- The text of the scalar decides. -/
  | byText
  /-- The shape of the node decides; a scalar is a string. -/
  | byShape
  | named (name : String)
  deriving Repr, DecidableEq

/-- Handles and what they stand for. -/
abbrev Handles := List (String × String)

/-- What the tags of the standard kinds begin with. -/
def standardTags : String :=
  "tag:yaml.org,2002:"

/-- The handles that need no declaration. -/
def standardHandles : Handles :=
  [("!", "!"), ("!!", standardTags)]

/-- The whole name of a tag. -/
def TagText.name? (handles : Handles) (t : TagText) : Option String :=
  match t.handle with
  | none => some t.suffix
  | some handle => (handles.lookup handle).map (· ++ t.suffix)

/-! ## Nodes -/

/-- A node. -/
inductive Node where
  | scalar (tag : Tag) (text : List Char)
  | sequence (tag : Tag) (items : List Node)
  | mapping (tag : Tag) (entries : List (Node × Node))
  deriving Repr

/-- The node of nothing. -/
def Node.empty : Node :=
  .scalar .byText []

/-! ## Reading -/

/-- What is left to read, and the nodes that have been given names. A name without a node is that of
a node that is being read. -/
structure Pending where
  tokens : List Token
  anchors : List (String × Option Node) := []

/-- A step of reading. -/
abbrev Parse (α : Type) := StateT Pending Option α

/-- The next token, which stays. -/
def peek? : Parse (Option Token) := do
  return (← get).tokens.head?

/-- Takes the next token. -/
def drop : Parse Unit :=
  modify fun p => { p with tokens := p.tokens.tail }

/-- Takes the next token if it is the given one. -/
def takeIf (t : Token) : Parse Bool := do
  if (← peek?) == some t then
    drop
    return true
  else return false

/-- Takes the next token, which has to be the given one. -/
def expect (t : Token) : Parse Unit := do
  if !(← takeIf t) then failure

/-- Whether the next token is one of the given ones. -/
def nextIsOneOf (ts : List Token) : Parse Bool := do
  match ← peek? with
  | some t => return ts.contains t
  | none => return false

/-- The name and the tag before a node, in either order. -/
def properties (handles : Handles) : Parse (Option String × Option String) := do
  let anchor : Parse (Option String) := do
    match ← peek? with
    | some (.anchor name) =>
      drop
      return some name
    | _ => return none
  let tag : Parse (Option String) := do
    match ← peek? with
    | some (.tag t) =>
      drop
      some <$> (t.name? handles : Option String)
    | _ => return none
  let before ← anchor
  let tag ← tag
  let after ← if before.isNone then anchor else pure none
  return (before <|> after, tag)

/-- Announces a name, which no other node may have. -/
def announce (name : Option String) : Parse Unit := do
  match name with
  | some name =>
    if ((← get).anchors.lookup name).isSome then failure
    else modify fun p => { p with anchors := (name, none) :: p.anchors }
  | none => return

/-- Gives a name to a node. -/
def settle (name : Option String) (n : Node) : Parse Node := do
  if let some name := name then
    modify fun p => { p with anchors := (name, some n) :: p.anchors }
  return n

/-- The tag of a node that is no plain scalar. -/
def shapeTag (tag : Option String) : Tag :=
  match tag with
  | some name => if name == "!" then .byShape else .named name
  | none => .byShape

/-- The tag of a scalar. -/
def scalarTag (tag : Option String) (isPlain : Bool) : Tag :=
  match tag with
  | some name => if name == "!" then .byText else .named name
  | none => if isPlain then .byText else .byShape

/-- Where a node stands. -/
inductive Place where
  | flow
  | block
  /-- After a key, where the dashes of a sequence may stand below the key. -/
  | entry
  deriving Repr, DecidableEq

mutual

/-- A node. -/
def node (handles : Handles) : (fuel : Nat) → Place → Parse Node
  | 0, _ => failure
  | fuel + 1, place => do
    if let some (.reference name) ← peek? then
      drop
      match (← get).anchors.lookup name with
      | some (some n) => return n
      | _ => failure
    else
      let (name, tag) ← properties handles
      announce name
      let isBlock := place != .flow
      match ← peek? with
      | some (.scalar text isPlain) =>
        drop
        settle name (.scalar (scalarTag tag isPlain) text)
      | some .flowSequence =>
        drop
        settle name (.sequence (shapeTag tag) (← flowItems handles fuel true))
      | some .flowMapping =>
        drop
        settle name (.mapping (shapeTag tag) (← flowEntries handles fuel true))
      | some .dash =>
        if place == .entry then settle name (.sequence (shapeTag tag) (← looseItems handles fuel))
        else emptyNode name tag
      | some .blockSequence =>
        if isBlock then
          drop
          settle name (.sequence (shapeTag tag) (← blockItems handles fuel))
        else emptyNode name tag
      | some .blockMapping =>
        if isBlock then
          drop
          settle name (.mapping (shapeTag tag) (← blockEntries handles fuel))
        else emptyNode name tag
      | _ => emptyNode name tag

/-- The node of nothing, which needs a name or a tag. -/
def emptyNode (name tag : Option String) : Parse Node := do
  if name.isNone && tag.isNone then failure
  else settle name (.scalar (scalarTag tag true) [])

/-- A node, or the node of nothing if one of the given tokens is next. -/
def nodeUnless (handles : Handles) : (fuel : Nat) → Place → List Token → Parse Node
  | 0, _, _ => failure
  | fuel + 1, place, ends => do
    if ← nextIsOneOf ends then return .empty
    else node handles fuel place

/-- The elements of a sequence up to the end of its block. -/
def blockItems (handles : Handles) : (fuel : Nat) → Parse (List Node)
  | 0 => failure
  | fuel + 1 => do
    if ← takeIf .dash then
      let n ← nodeUnless handles fuel .block [.dash, .blockEnd]
      return n :: (← blockItems handles fuel)
    else
      expect .blockEnd
      return []

/-- The elements of a sequence that has no block of its own. -/
def looseItems (handles : Handles) : (fuel : Nat) → Parse (List Node)
  | 0 => failure
  | fuel + 1 => do
    if ← takeIf .dash then
      let n ← nodeUnless handles fuel .block [.dash, .key, .value, .blockEnd]
      return n :: (← looseItems handles fuel)
    else return []

/-- The entries of a mapping up to the end of its block. -/
def blockEntries (handles : Handles) : (fuel : Nat) → Parse (List (Node × Node))
  | 0 => failure
  | fuel + 1 => do
    if ← takeIf .key then
      let ends : List Token := [.key, .value, .blockEnd]
      let k ← nodeUnless handles fuel .entry ends
      let v ← if ← takeIf .value then nodeUnless handles fuel .entry ends else pure .empty
      return (k, v) :: (← blockEntries handles fuel)
    else
      expect .blockEnd
      return []

/-- A key and its value inside brackets, of which the key has been announced by a token. -/
def flowPair (handles : Handles) : (fuel : Nat) → (closing : Token) → Parse (Node × Node)
  | 0, _ => failure
  | fuel + 1, closing => do
    let k ← nodeUnless handles fuel .flow [.value, .comma, closing]
    let v ←
      if ← takeIf .value then nodeUnless handles fuel .flow [.comma, closing] else pure .empty
    return (k, v)

/-- The elements of a sequence up to its closing bracket. A pair alone is a mapping. -/
def flowItems (handles : Handles) : (fuel : Nat) → (isFirst : Bool) → Parse (List Node)
  | 0, _ => failure
  | fuel + 1, isFirst => do
    if ← takeIf .flowSequenceEnd then return []
    else
      if !isFirst then expect .comma
      if ← takeIf .key then
        let pair ← flowPair handles fuel .flowSequenceEnd
        return .mapping .byShape [pair] :: (← flowItems handles fuel false)
      else if ← takeIf .flowSequenceEnd then return []
      else
        let n ← node handles fuel .flow
        return n :: (← flowItems handles fuel false)

/-- The entries of a mapping up to its closing brace. A node alone is a key. -/
def flowEntries (handles : Handles) : (fuel : Nat) → (isFirst : Bool) →
    Parse (List (Node × Node))
  | 0, _ => failure
  | fuel + 1, isFirst => do
    if ← takeIf .flowMappingEnd then return []
    else
      if !isFirst then expect .comma
      if ← takeIf .key then
        let pair ← flowPair handles fuel .flowMappingEnd
        return pair :: (← flowEntries handles fuel false)
      else if ← takeIf .flowMappingEnd then return []
      else
        let n ← node handles fuel .flow
        return (n, .empty) :: (← flowEntries handles fuel false)

end

/-! ## Documents -/

/-- Whether a text is a version with which this reader can do: the first number is one. -/
def isVersion (text : String) : Bool :=
  match Text.splitAt '.' text.toList with
  | [major, minor] =>
    major.all Char.isDigit && !major.isEmpty && decimal major == 1 && minor.all Char.isDigit
      && !minor.isEmpty
  | _ => false

/-- Whether a text may be declared as a handle. -/
def isHandle (text : String) : Bool :=
  match text.toList with
  | ['!'] => true
  | '!' :: rest => rest.getLast? == some '!' && rest.dropLast.all State.isNameChar
  | _ => false

/-- The directives before a document: a version, of which there is at most one, and handles, each at
most once. -/
def directives : (fuel : Nat) → (hasVersion : Bool) → Handles → Parse Handles
  | 0, _, _ => failure
  | fuel + 1, hasVersion, declared => do
    match ← peek? with
    | some (.directive "YAML" parameters) =>
      drop
      match parameters with
      | [version] =>
        if hasVersion || !isVersion version then failure else directives fuel true declared
      | _ => failure
    | some (.directive "TAG" parameters) =>
      drop
      match parameters with
      | [handle, start] =>
        if !isHandle handle || (declared.lookup handle).isSome then failure
        else directives fuel hasVersion ((handle, start) :: declared)
      | _ => failure
    | some (.directive _ _) =>
      drop
      directives fuel hasVersion declared
    | _ => return declared ++ standardHandles

/-- Markers of the end of a document. -/
def documentEnds : (fuel : Nat) → Parse Unit
  | 0 => return
  | fuel + 1 => do
    if ← takeIf .documentEnd then documentEnds fuel

/-- The only document, if there is one. -/
def document (fuel : Nat) : Parse (Option Node) := do
  match ← peek? with
  | none => return none
  | some (.directive ..) | some .documentStart =>
    let handles ← directives fuel false []
    expect .documentStart
    match ← peek? with
    | none | some (.directive ..) | some .documentStart | some .documentEnd => return some .empty
    | _ => return some (← node handles fuel .block)
  | _ => return some (← node standardHandles fuel .block)

/-- The document that a row of tokens makes; none if there is no document. -/
def nodeOf? (tokens : List Token) : Option (Option Node) := do
  let fuel := 3 * tokens.length + 3
  let (n, rest) ← (do
    let n ← document fuel
    documentEnds fuel
    return n).run { tokens }
  if rest.tokens.isEmpty then some n else none

end CodeSurvey.Format.Yaml
