import CodeSurvey.Entity.Basic
import CodeSurvey.Files.Classify
import CodeSurvey.Metrics.Complexity

/-!
# Long functions and deep nesting

Functions that span many lines, files whose lines are indented far, and how complex functions are
on average.
-/

namespace CodeSurvey.Metrics

open Text

/-! ## Indentation -/

/-- How far a line is indented, with tab stops every `tabWidth` columns. -/
def indentation (tabWidth : Int) (line : List Char) : Nat :=
  let expanded := expandTabs tabWidth line
  expanded.length - (trimStart expanded).length

/-- How far the lines of a text that are not blank are indented at most. -/
def maxIndentation (tabWidth : Int) (content : List Char) : Nat :=
  (((lines content).filter fun line => !isBlank line).map (indentation tabWidth)).foldl max 0

/-! ## Reports -/

/-- What counts as long and as deep. -/
structure Thresholds where
  /-- A function that spans more lines is long. -/
  longFunction : Number
  /-- A file that is indented further is deeply nested. -/
  nesting : Number
  tabWidth : Int

/-- The thresholds that settings name. -/
def Thresholds.ofSettings (settings : Settings) : Except SettingsError Thresholds := do
  let complexity ← settings.sectionNamed "complexity"
  pure ⟨complexity.number "long_function_lines" 100, complexity.number "nesting_indent" 24,
    complexity.int "tab_width" 4⟩

/-- How complex functions are on average, the long ones, and the files that are deeply nested. -/
structure ComplexityReport where
  average : Number
  longFunctions : List String
  deepFiles : List String

/-- A file with what is known about it. -/
abbrev ClassifiedFile := SourceFile × FileInfo

/-- The average complexity of functions; without functions it is zero. -/
def averageComplexity (functions : List Function) : Float :=
  if functions.isEmpty then 0
  else Format.quotient (functions.foldl (fun n f => n + f.complexity) 0) functions.length

/-- Whether a function spans more lines than allowed. -/
def Thresholds.isLong (t : Thresholds) (f : Function) : Bool :=
  t.longFunction.lt (.int (f.lineEnd - f.lineStart + 1))

/-- Whether a file out of which entities are read is indented further than allowed. -/
def Thresholds.isDeep (t : Thresholds) (file : ClassifiedFile) : Bool :=
  file.2.structural
    && t.nesting.lt (.int (maxIndentation t.tabWidth file.1.content.toList))

/-- The report of functions and files. -/
def ComplexityReport.of (t : Thresholds) (functions : List Function) (files : List ClassifiedFile) :
    ComplexityReport where
  average := .float (averageComplexity functions)
  longFunctions := (functions.filter t.isLong).map fun f => f.filePath ++ ":" ++ f.name
  deepFiles := (files.filter t.isDeep).map (·.2.path)

/-- A report as a value. -/
def ComplexityReport.toValue (r : ComplexityReport) : Value :=
  .map [("average_complexity", .number r.average), ("long_functions", .texts r.longFunctions),
    ("deeply_nested_files", .texts r.deepFiles)]

end CodeSurvey.Metrics
