import CodeSurvey.Survey.Surveyor

/-!
# Surveys of single files

Everything that one file contributes. A component that fails leaves a problem behind and nothing
else: the kinds that read what it would have found see it empty.
-/

namespace CodeSurvey.Survey

open Extract (Faults Failure Kept Context)

/-- A failure that was passed over. -/
structure Problem where
  filePath : String
  component : String
  message : String
  deriving Repr, DecidableEq

/-- What one file contributes. -/
structure FileSurvey where
  entities : Entities
  usages : List Environment.Usage := []
  /-- The names that the file declares, if it is an environment file. -/
  declared : Option (List String) := none
  findings : List Security.Finding := []
  problems : List Problem := []

/-! ## Entities -/

/-- Works out the given kinds in order and tells which of them failed. -/
def attemptAll (c : Context) : List Kind → StateM Kept (List (Kind × Failure))
  | [] => pure []
  | k :: rest => do
    let result ← c.attempt k
    let failed ← attemptAll c rest
    match result with
    | .ok _ => pure failed
    | .error e => pure ((k, e) :: failed)

/-! ## Components -/

/-- The result of a component that is not to break down, and what went wrong if it is. -/
def guarded (faults : Faults) (component filePath : String) (missing : α) (run : Unit → α) :
    α × List Problem :=
  match faults.lookup component with
  | some message => (missing, [⟨filePath, component, message⟩])
  | none => (run (), [])

/-- Surveys one classified file. -/
def surveyFile (s : Surveyor) (extractors : Extract.Extractors) (faults : Faults)
    (file : Metrics.ClassifiedFile) : FileSurvey :=
  let (source, info) := file
  let content := source.content.toList
  let context : Context := { extractors, view := Extract.View.ofFile info content, faults }
  -- Kinds that others read come before them, so a failure is noted once and for its own kind.
  let (failed, kept) := (attemptAll context Kind.all).run Kept.nothing
  let (declared, declaredProblems) :=
    if info.language == "dotenv" then
      guarded faults "env" info.path none fun _ => some (Environment.declaredNames content)
    else (none, [])
  let (usages, usageProblems) :=
    if info.language != "dotenv" && s.environmentLanguages.contains info.language then
      guarded faults "env" info.path [] fun _ => Environment.usages info.path content
    else ([], [])
  let (findings, findingProblems) :=
    if info.structural then
      guarded faults "security" info.path [] fun _ => s.scanner.scan info.path content
    else ([], [])
  { entities := kept.entities
    usages
    declared
    findings
    problems := failed.map (fun e => ⟨info.path, e.1.name, e.2.message⟩)
      ++ declaredProblems ++ usageProblems ++ findingProblems }

end CodeSurvey.Survey
