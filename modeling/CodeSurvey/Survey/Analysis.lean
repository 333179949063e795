import CodeSurvey.Environment.Variables
import CodeSurvey.Manifest.ConfigFile
import CodeSurvey.Manifest.Dependency
import CodeSurvey.Survey.Callers
import CodeSurvey.Survey.FileSurvey

/-!
# Analyses

An analysis puts together what the files of a source tree contribute, in the order of the files, and
judges the whole.
-/

namespace CodeSurvey.Survey

open Extract (Faults)

/-- What is known about a source tree. -/
structure Analysis where
  files : List FileInfo
  entities : Entities
  environment : List Environment.Variable
  configFiles : List Manifest.ConfigFile
  dependencies : Manifest.Dependencies
  security : Security.Report
  quality : Int
  architecture : List String
  statistics : Metrics.Statistics
  problems : List Problem

/-- The functions of an analysis. -/
def Analysis.functions (a : Analysis) : List Function :=
  a.entities .functions

/-- Classifies files. -/
def Surveyor.classify (s : Surveyor) (files : List SourceFile) :
    Except SettingsError (List Metrics.ClassifiedFile) := do
  if files.isEmpty then pure []
  else
    let categories ← s.categories
    pure (files.map fun f => (f, s.classifier.classify categories f))

/-- What the environment files declare. Of two files with one path the later one counts. -/
def declarationsOf (surveys : List (SourceFile × FileSurvey)) : Environment.Declarations :=
  surveys.foldl (fun acc (file, survey) => match survey.declared with
    | some names => acc.filter (·.1 != file.path) ++ [(file.path, names)]
    | none => acc) []

/-- The entities of all files, kind by kind, in the order of the files. -/
def joined (surveys : List FileSurvey) : Entities := fun k =>
  surveys.flatMap fun f => f.entities k

/-- Analyses files, where the components in `faults` break down. -/
def Surveyor.analyze (s : Surveyor) (files : List SourceFile) (faults : Faults := []) :
    Except SettingsError Analysis := do
  -- Categories are asked for only if there are files, extractors always, in this order.
  let classified ← s.classify files
  let extractors ← s.extractors
  let surveys := classified.map (surveyFile s extractors faults)
  let entities := joined surveys
  let functions := entities .functions
  let functions := if s.crossReference then withCallers functions else functions
  let (dependencies, dependencyProblems) :=
    guarded faults "dependencies" "" {} fun _ => Manifest.dependencies files
  let security ← Security.Report.ofFindings s.weights (surveys.flatMap (·.findings))
  let complexity := Metrics.ComplexityReport.of s.thresholds functions classified
  let architecture := Metrics.detect Metrics.standardMarkers files
  let quality ← s.scale.score complexity architecture
  pure {
    files := classified.map (·.2)
    entities := entities.put .functions functions
    environment := Environment.variablesOf (surveys.flatMap (·.usages))
      (declarationsOf (files.zip surveys))
    configFiles := Manifest.configFiles (classified.map (·.2))
    dependencies
    security
    quality
    architecture
    statistics := Metrics.Statistics.of s.shown classified functions
      ⟨(entities .classes).length, (entities .components).length, (entities .routes).length⟩
    problems := surveys.flatMap (·.problems) ++ dependencyProblems }

/-! ## Analyses as values -/

/-- A problem as a value. -/
def Problem.toValue (p : Problem) : Value :=
  .map [("file_path", .text p.filePath), ("extractor", .text p.component),
    ("message", .text p.message)]

/-- The name under which the entities of a kind are written. -/
def fieldName : Kind → String
  | .routes => "api_routes"
  | k => k.name

/-- The entries of an analysis, in order. -/
def Analysis.entries (a : Analysis) : List (String × Value) :=
  let listed (listing : Security.Listing) : Value :=
    .list ((a.security.listed listing).map Security.Finding.toValue)
  [("files", .list (a.files.map FileInfo.toValue))]
    ++ Kind.all.map (fun k => (fieldName k, k.listValue (a.entities k)))
    ++ [("env_vars", .list (a.environment.map Environment.Variable.toValue)),
      ("config_files", .list (a.configFiles.map Manifest.ConfigFile.toValue)),
      ("dependencies", .list (a.dependencies.runtime.map Manifest.Dependency.toValue)),
      ("dev_dependencies", .list (a.dependencies.development.map Manifest.Dependency.toValue)),
      ("security_issues", listed .issue), ("vulnerabilities", listed .vulnerability),
      ("security_score", .number a.security.summary.score),
      ("security_summary", a.security.summary.toValue),
      ("quality_score", .int a.quality), ("patterns", .texts a.architecture),
      ("stats", a.statistics.toValue), ("errors", .list (a.problems.map Problem.toValue))]

/-- An analysis as a value. -/
def Analysis.toValue (a : Analysis) : Value :=
  .map a.entries

end CodeSurvey.Survey
