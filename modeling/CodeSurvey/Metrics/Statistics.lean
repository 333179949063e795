import CodeSurvey.Metrics.Nesting
import CodeSurvey.Text.Names

/-!
# Statistics

How many lines there are of what kind, how many files of which language, and which files and
functions stand out. Every order is complete, so the order of the files does not matter.
-/

namespace CodeSurvey.Metrics

open Text

/-! ## Lines -/

/-- How a line counts. -/
inductive LineKind where
  | code
  | comment
  | blank
  deriving Repr, DecidableEq

/-- Languages in which a number sign starts a comment. -/
def numberSignLanguages : List String :=
  ["py", "sh", "yaml", "toml", "rb", "dockerfile", "dotenv"]

/-- What starts a comment in a language. -/
def commentStarts (language : String) : List String :=
  if numberSignLanguages.contains language then ["#"] else ["//", "/*", "*"]

/-- How a line counts in a language. -/
def lineKind (language : String) (line : List Char) : LineKind :=
  let line := trim line
  if line.isEmpty then .blank
  else if (commentStarts language).any fun s => startsWith line s.toList then .comment
  else .code

/-- How many lines there are of each kind. -/
structure LineCounts where
  code : Nat := 0
  comment : Nat := 0
  blank : Nat := 0
  deriving Repr, DecidableEq

namespace LineCounts

instance : Add LineCounts :=
  ⟨fun a b => ⟨a.code + b.code, a.comment + b.comment, a.blank + b.blank⟩⟩

/-- All lines. -/
def total (c : LineCounts) : Nat :=
  c.code + c.comment + c.blank

/-- The counts of a text in a language. -/
def ofText (content : List Char) (language : String) : LineCounts :=
  let kinds := (lines content).map (lineKind language)
  ⟨kinds.count .code, kinds.count .comment, kinds.count .blank⟩

/-- The counts of several texts together. -/
def sum (counts : List LineCounts) : LineCounts :=
  counts.foldl (· + ·) {}

end LineCounts

/-! ## Statistics -/

/-- How many entities there are that statistics only count. -/
structure EntityCounts where
  classes : Nat := 0
  components : Nat := 0
  routes : Nat := 0

/-- Statistics of files and functions. -/
structure Statistics where
  files : Nat := 0
  lines : LineCounts := {}
  functions : Nat := 0
  entities : EntityCounts := {}
  /-- How many files there are of each language, in the order of the names. -/
  languages : List (String × Nat) := []
  /-- Paths and numbers of lines, the longest files first. -/
  largestFiles : List (String × Nat) := []
  /-- The most complex functions first. -/
  mostComplex : List Function := []

/-- Whether one file comes before another: longer files first, then by path. -/
def longerFirst (a b : String × Nat) : Bool :=
  ((compare b.2 a.2).then (compare a.1 b.1)).isLE

/-- Whether one function comes before another: more complex ones first, then by path, line and
name. -/
def moreComplexFirst (a b : Function) : Bool :=
  ((compare b.complexity a.complexity).then <| (compare a.filePath b.filePath).then <|
    (compare a.lineStart b.lineStart).then (compare a.name b.name)).isLE

/-- The elements up to a signed bound, or all of them. -/
def best (most : Option Int) (xs : List α) : List α :=
  match most with
  | some n => upTo xs n
  | none => xs

/-- How many files and functions statistics show, as settings say. -/
def shownOf (settings : Settings) : Except SettingsError (Option Int) := do
  let stats ← settings.sectionNamed "stats"
  pure (stats.bound? "top_n" 10)

/-- The statistics of files and functions. -/
def Statistics.of (most : Option Int) (files : List ClassifiedFile) (functions : List Function)
    (entities : EntityCounts) : Statistics :=
  let counts := files.map fun f => LineCounts.ofText f.1.content.toList f.2.language
  -- Every line is of one kind, so the kinds add up to the number of lines.
  let sizes := files.zipWith (fun f c => (f.2.path, LineCounts.total c)) counts
  { files := files.length
    lines := LineCounts.sum counts
    functions := functions.length
    entities
    languages := tally (files.map (·.2.language))
    largestFiles := best most (sizes.mergeSort longerFirst)
    mostComplex := best most (functions.mergeSort moreComplexFirst) }

/-- Statistics as a value. -/
def Statistics.toValue (s : Statistics) : Value :=
  .map [("total_files", .nat s.files), ("total_lines", .nat s.lines.total),
    ("code_lines", .nat s.lines.code), ("comment_lines", .nat s.lines.comment),
    ("blank_lines", .nat s.lines.blank), ("total_functions", .nat s.functions),
    ("total_classes", .nat s.entities.classes), ("total_components", .nat s.entities.components),
    ("total_routes", .nat s.entities.routes),
    ("languages", .map (s.languages.map fun e => (e.1, .nat e.2))),
    ("largest_files", .list (s.largestFiles.map fun f =>
      .map [("path", .text f.1), ("lines", .nat f.2)])),
    ("most_complex_functions", .list (s.mostComplex.map fun f =>
      .map [("name", .text f.name), ("file_path", .text f.filePath),
        ("line_start", .nat f.lineStart), ("complexity", .nat f.complexity)]))]

end CodeSurvey.Metrics
