import CodeSurvey.Distinct
import CodeSurvey.Security.Scanner
import CodeSurvey.Text.Names

/-!
# Security reports

A report lists every finding once, issues apart from vulnerabilities, and sums them up.
-/

namespace CodeSurvey.Security

/-- What tells findings apart. -/
def Finding.key (f : Finding) : String × String × Nat × String :=
  (f.rule.category, f.filePath, f.line, f.rule.title)

/-! ## Summaries -/

/-- How many findings there are of what kind, and how they are graded. -/
structure Summary where
  total : Nat := 0
  bySeverity : List (Severity × Nat) := Severity.all.map fun s => (s, 0)
  /-- In the order of the names. -/
  byCategory : List (String × Nat) := []
  affectedFiles : Nat := 0
  score : Number := 100
  grade : String := "A"

/-- The summary of findings that have no key in common. -/
def Summary.ofFindings (weights : Weights) (findings : List Finding) : Summary :=
  let total := Security.score weights (findings.map (·.rule.severity))
  { total := findings.length
    bySeverity := Severity.all.map fun s => (s, (findings.map (·.rule.severity)).count s)
    byCategory := Text.tally (findings.map (·.rule.category))
    affectedFiles := (findings.map (·.filePath)).eraseDups.length
    score := total
    grade := Security.grade total }

/-! ## Reports -/

/-- Findings without repetitions and their summary. -/
structure Report where
  findings : List Finding := []
  summary : Summary := {}

/-- The findings with a listing. -/
def Report.listed (r : Report) (listing : Listing) : List Finding :=
  r.findings.filter fun f => f.rule.listing == listing

/-- The weights that settings name. Settings may hold something here that is no section; then
findings cannot be weighed. -/
def weightsOf (settings : Settings) : Except SettingsError Weights := do
  let security ← settings.sectionNamed "security"
  match Value.lookup? "weights" security with
  | some v =>
    let entries ← asSection .get v
    pure (entries.filterMap fun e => e.2.number?.map fun n => (e.1, n))
  | none => pure (defaultWeights.map fun e => (e.1, .int e.2))

/-- The report of findings. Weights are needed only if there is something to weigh. -/
def Report.ofFindings (weights : Except SettingsError Weights) (findings : List Finding) :
    Except SettingsError Report := do
  let findings := distinctBy Finding.key findings
  -- Weights that cannot be used do no harm as long as nothing is weighed.
  let weights ← if findings.isEmpty then pure [] else weights
  pure ⟨findings, Summary.ofFindings weights findings⟩

/-! ## Reports as values -/

/-- A finding as a value, as its listing asks. -/
def Finding.toValue (f : Finding) : Value :=
  let place := [("file_path", .text f.filePath), ("line", .nat f.line), ("code", .text f.code),
    ("recommendation", .text f.rule.recommendation), ("cwe_id", Value.text? f.rule.cwe)]
  let severity := ("severity", .text f.rule.severity.name)
  match f.rule.listing with
  | .issue => .map ([("rule_id", .text f.rule.id), ("type", .text f.rule.category), severity,
      ("title", .text f.rule.title), ("message", .text f.rule.description)] ++ place)
  | .vulnerability => .map ([("rule_id", .text f.rule.id), ("name", .text f.rule.title),
      ("category", .text f.rule.category), severity, ("description", .text f.rule.description)]
      ++ place)

/-- A summary as a value. -/
def Summary.toValue (s : Summary) : Value :=
  .map [("total", .nat s.total),
    ("by_severity", .map (s.bySeverity.map fun e => (e.1.name, .nat e.2))),
    ("by_category", .map (s.byCategory.map fun e => (e.1, .nat e.2))),
    ("affected_files", .nat s.affectedFiles), ("score", .number s.score), ("grade", .text s.grade)]

end CodeSurvey.Security
