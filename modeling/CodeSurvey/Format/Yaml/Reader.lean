import CodeSurvey.Format.Json.Printer
import CodeSurvey.Format.Yaml.Resolve

/-!
# Reading YAML

Reads a text that holds at most one document, as version 1.1 has it. A mapping may take over the
entries of others; its own entries then stand after those and count instead of them.
-/

namespace CodeSurvey.Format.Yaml

/-- The tag of a sequence. -/
def isSequenceTag (tag : Tag) : Bool :=
  tag == .byShape || tag == .named (standardTags ++ "seq")

/-- The tag of a mapping. -/
def isMappingTag (tag : Tag) : Bool :=
  tag == .byShape || tag == .named (standardTags ++ "map")

/-- Whether a node is the key under which mappings stand that are taken over. -/
def isMergeKey : Node → Bool
  | .scalar tag text => scalarKind? tag text == some .mergeKey
  | _ => false

/-- The text under which an entry is kept: a string is kept under itself and any other scalar under
what it is written as. -/
def keyText? : Value → Option String
  | .text s => some s
  | .list _ | .map _ | .moment _ => none
  | v => some (Json.compact v)

/-- The key of an entry. The sign for the value of a mapping is a text here. -/
def keyOf (k : Node) : Except ReadError String :=
  match k with
  | .scalar tag text =>
    if scalarKind? tag text == some .valueKey then .ok (String.ofList text)
    else do
      match keyText? (← scalarValue tag text) with
      | some key => pure key
      | none => throw .malformed
  | _ => .error .malformed

mutual

/-- The value of a node. -/
def valueOf : Node → Except ReadError Value
  | .scalar tag text => scalarValue tag text
  | .sequence tag items => do
    let xs ← valuesOf items
    if isSequenceTag tag then pure (.list xs) else throw .malformed
  | .mapping tag entries => do
    let (taken, own) ← entriesOf entries
    if isMappingTag tag then pure (.map (Value.putAll [] (taken ++ own))) else throw .malformed

/-- The values of nodes. -/
def valuesOf : List Node → Except ReadError (List Value)
  | [] => pure []
  | n :: rest => do
    let v ← valueOf n
    return v :: (← valuesOf rest)

/-- The entries that a mapping takes over, and its own. -/
def entriesOf : List (Node × Node) →
    Except ReadError (List (String × Value) × List (String × Value))
  | [] => pure ([], [])
  | (k, v) :: rest => do
    if isMergeKey k then
      let here ← takenFrom v
      let (taken, own) ← entriesOf rest
      return (here ++ taken, own)
    else
      let key ← keyOf k
      let value ← valueOf v
      let (taken, own) ← entriesOf rest
      return (taken, (key, value) :: own)

/-- The entries that are taken over from a mapping, or from a sequence of mappings, of which the
earlier ones count. -/
def takenFrom : Node → Except ReadError (List (String × Value))
  | .mapping _ entries => do
    let (taken, own) ← entriesOf entries
    return taken ++ own
  | .sequence _ items => takenFromAll items
  | .scalar .. => .error .malformed

/-- The entries that are taken over from mappings, those of later ones first. -/
def takenFromAll : List Node → Except ReadError (List (String × Value))
  | [] => pure []
  | .mapping _ entries :: rest => do
    let (taken, own) ← entriesOf entries
    return (← takenFromAll rest) ++ taken ++ own
  | _ :: _ => .error .malformed

end

/-- Reads a text; without a document in it, its value is nothing. -/
def read (text : List Char) : Except ReadError Value :=
  match (tokens? (Text.withLineFeeds text)).bind nodeOf? with
  | some (some n) => valueOf n
  | some none => .ok .null
  | none => .error .malformed

end CodeSurvey.Format.Yaml
