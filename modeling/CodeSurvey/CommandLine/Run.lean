import CodeSurvey.CommandLine.Options
import CodeSurvey.Files.Selection
import CodeSurvey.Format.Json.Printer
import CodeSurvey.Report.Template
import CodeSurvey.Settings.Document
import CodeSurvey.Settings.Starter

/-!
# Runs

What a run of the program does: it reads settings and files from a disk, analyses them, and writes
the analysis or reports.
-/

namespace CodeSurvey.CommandLine

open Files (Disk FileError Names)

/-- The name and the version of the program. -/
def versionText : String :=
  "repo_analyzer 1.0.0"

/-! ## Errors -/

/-- Why a run breaks off. -/
inductive RunError where
  | settings (error : SettingsError)
  | file (error : FileError)
  /-- The file that takes the place of a report is no text. -/
  | template (fault : Format.Fault)
  deriving Repr, DecidableEq

/-- What is told about a run that breaks off. -/
def RunError.message : RunError → String
  | settings error => error.message
  | file error => error.message
  | template fault => fault.message

/-! ## Outcomes -/

/-- What a run leaves behind. -/
structure Outcome where
  status : Nat := 0
  output : String := ""
  errors : String := ""
  /-- The files that have been written, in order. -/
  written : List (Names × String) := []

/-- The disk and what the run has left behind so far. -/
structure RunState where
  disk : Disk
  outcome : Outcome := {}

/-- A step of a run. It may end the run, or break it off. -/
abbrev Run (α : Type) := StateT RunState (ExceptT (Outcome ⊕ RunError) Id) α

/-- Adds to what the run leaves behind. -/
def leave (f : Outcome → Outcome) : Run Unit :=
  modify fun s => { s with outcome := f s.outcome }

/-- A line on the output. -/
def say (text : String) : Run Unit :=
  leave fun o => { o with output := o.output ++ text ++ "\n" }

/-- A line on the error output. -/
def tell (text : String) : Run Unit :=
  leave fun o => { o with errors := o.errors ++ text ++ "\n" }

/-- A line on the error output if the run is verbose. -/
def Options.report (o : Options) (text : String) : Run Unit := do
  if o.verbose then tell text

/-- Ends the run with an error of the user's. -/
def refuse (text : String) : Run α := do
  tell ("Error: " ++ text)
  throw (.inl { (← get).outcome with status := 1 })

/-- The result of something that can break the run off. -/
def orBreak (result : Except RunError α) : Run α :=
  match result with
  | .ok a => pure a
  | .error e => throw (.inr e)

/-- Writes a file. -/
def writeFile (path text : String) : Run Unit := do
  let s ← get
  let (names, disk) ← orBreak ((s.disk.write path text).mapError .file)
  set { s with
    disk
    outcome := { s.outcome with written := s.outcome.written ++ [(names, text)] } }

/-! ## Settings -/

/-- An argument that is not empty. -/
def given (argument : Option String) : Option String :=
  argument.filter fun a => !a.isEmpty

/-- A path, as it is told. -/
def shownPath (path : String) : String :=
  String.ofList (Files.Path.ofText path.toList).text

/-- The settings that a file describes. It is read in pieces, so that a character that is cut off is
at the front of what is left. -/
def loadSettings (disk : Disk) (path : String) : Except RunError Settings := do
  let bytes ← (disk.read path).mapError .file
  let text ← (Text.decodeStrictly bytes).mapError fun broken =>
    -- What is cut off is only found out when nothing follows the last piece.
    let position := if broken.defect == .cutOff then 0 else broken.position
    .settings (.badValue (.notText { broken with position }))
  (Settings.ofDocument path text).mapError .settings

/-- The settings: those of the file that is named, or the defaults. -/
def Options.settings (o : Options) : Run Settings := do
  match given o.config with
  | none => return defaultSettings
  | some path =>
    let disk := (← get).disk
    let shown := shownPath path
    if (disk.entry? path).isNone then refuse ("Config file '" ++ shown ++ "' does not exist")
    match loadSettings disk shown with
    | .ok settings =>
      o.report ("Loaded config: " ++ shown)
      return settings
    | .error (.settings .noDocument) =>
      refuse ("Invalid YAML in '" ++ shown ++ "': " ++ SettingsError.noDocument.message)
    | .error (.settings e) => refuse e.message
    | .error e => throw (.inr e)

/-! ## Reports -/

/-- The file that takes the place of a report, if there is one. -/
def override? (disk : Disk) (directory : String) (t : Report.Template) : Option ByteArray :=
  (disk.read (directory ++ "/" ++ t.fileName)).toOption

/-- The text of a report, or that of the file that takes its place. -/
def Options.reportText (o : Options) (a : Survey.Analysis) (t : Report.Template) : Run String := do
  let disk := (← get).disk
  match (given o.templates).bind fun directory => override? disk directory t with
  | some bytes =>
    let text ← orBreak ((Text.decodeStrictly bytes).mapError fun b => .template (.notText b))
    return String.ofList (Text.withLineFeeds text)
  | none => return t.render a

/-- Writes the result of a run. -/
def Options.deliver (o : Options) (text : String) : Run Unit := do
  match given o.output with
  | some path =>
    writeFile path text
    o.report ("Output written to: " ++ path)
  | none => say text

/-- The analysis as it is written. -/
def resultText (a : Survey.Analysis) (root time : String) : String :=
  let heading := [("generated_at", Value.text time), ("tool_version", .text "1.0.0"),
    ("root", .text root)]
  Format.Json.pretty (.map (("meta", .map heading) :: a.entries))

/-- The numbers that a verbose run tells. -/
def digest (a : Survey.Analysis) : String :=
  "  " ++ Format.natText a.statistics.files ++ " files, "
    ++ Format.natText a.functions.length ++ " functions, "
    ++ Format.natText (a.entities .routes).length ++ " routes, security "
    ++ a.security.summary.score.text ++ "/100, quality " ++ Format.intText a.quality ++ "/100"

/-! ## Runs -/

/-- The steps of a run that has work to do. -/
def Options.work (o : Options) (time : String) : Run Unit := do
  let settings ← o.settings
  let disk := (← get).disk
  let names := disk.absolute o.path
  let root := Files.pathText names
  let some directory := (disk.root.at? names).filter (·.isDirectory)
    | refuse ("Path '" ++ root ++ "' does not exist or is not a directory")
  let selection ←
    orBreak ((Files.Selection.ofSettings settings o.exclude o.maxFileSize).mapError .settings)
  o.report ("Analyzing: " ++ root)
  let files := selection.load (.ofText root.toList) directory
  let surveyor ← orBreak ((Survey.Surveyor.ofSettings settings o.workers).mapError .settings)
  let a ← orBreak ((surveyor.analyze files).mapError .settings)
  o.report (digest a)
  if let some path := given o.securityReport then
    writeFile path (← o.reportText a .security)
    o.report ("Security report written to: " ++ path)
  if o.summary then o.deliver (← o.reportText a .summary)
  else o.deliver (resultText a root time)

/-- Runs the program with arguments on a disk at a time of day. -/
def run (arguments : List String) (disk : Disk) (time : String) : Except RunError Outcome :=
  match Options.ofArguments arguments with
  | .error .misuse => .ok { status := 2, errors := usageText }
  | .error .version => .ok { output := versionText ++ "\n" }
  | .error .help => .ok { output := usageText }
  | .ok o =>
    let steps : Run Unit := if o.initConfig then say starterText else o.work time
    match steps.run { disk } with
    | .ok (_, s) => .ok s.outcome
    | .error (.inl outcome) => .ok outcome
    | .error (.inr e) => .error e

end CodeSurvey.CommandLine
