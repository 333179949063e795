import CodeSurvey.Files.Classify
import CodeSurvey.Source.Signature

/-!
# Views of files

What extraction sees: the text of a classified file with its line table, and the limits on scans
and on what is kept.
-/

namespace CodeSurvey.Extract

open Text

/-! ## Limits -/

/-- How far scans look and how much is kept. -/
structure Limits where
  fallback : Int
  block : Int
  signature : Int
  definition : Int
  /-- How many properties are kept; zero is no limit. -/
  properties : Int
  /-- How many characters of code are kept, by kind. Settings may hold something here that is no
  section; then code cannot be kept at all. -/
  code : Except SettingsError (List (String × Int))

/-- The limits that settings name. -/
def Limits.ofSettings (settings : Settings) : Except SettingsError Limits := do
  let limits ← settings.sectionNamed "limits"
  pure {
    fallback := limits.int "block_fallback_length" Source.blockFallback
    block := limits.int "max_block_scan" Source.blockCeiling
    signature := limits.int "max_signature_scan" Source.signatureCeiling
    definition := limits.int "max_type_definition" Source.definitionCeiling
    properties := (limits.bound? "max_properties" 50).getD 0
    code := (limits.sectionNamed "code").map fun entries =>
      entries.filterMap fun e => e.2.int?.map fun n => (e.1, n) }

/-- The code that is kept for a kind. A limit of zero is none. -/
def Limits.keep (limits : Limits) (kind : String) (code : List Char) : List Char :=
  match limits.code.toOption.bind (·.lookup kind) with
  | some n => if n != 0 && n < code.length then upTo code n else code
  | none => code

/-! ## Views -/

/-- A file as extraction sees it. -/
structure View where
  info : FileInfo
  content : List Char
  table : LineTable
  /-- The anchored path in lower case. -/
  lowerPath : List Char

/-- The view of a classified file. -/
def View.ofFile (info : FileInfo) (content : List Char) : View :=
  ⟨info, content, LineTable.ofText content, Files.anchoredLower info.path.toList⟩

namespace View

/-- The path of the file. -/
def path (v : View) : String :=
  v.info.path

/-- The number of the line that holds an offset. -/
def lineAt (v : View) (offset : Nat) : Nat :=
  v.table.lineAt offset

/-- Whether the lower-case path holds one of the given texts. -/
def pathHas (v : View) (markers : List String) : Bool :=
  containsAny v.lowerPath (markers.map String.toList)

end View

/-! ## Pieces of a file -/

/-- A piece of a file: its first and last line, and its code. -/
structure Piece where
  first : Nat
  last : Nat
  code : List Char

/-- The piece with this code that begins at an offset. -/
def View.piece (v : View) (start : Nat) (code : List Char) : Piece :=
  let first := v.lineAt start
  ⟨first, first + count '\n' code, code⟩

/-- The piece between two offsets, without blanks at its end. -/
def View.pieceBetween (v : View) (start stop : Nat) : Piece :=
  v.piece start (trimEnd (between v.content start stop))

end CodeSurvey.Extract
