import CodeSurvey.Report.Markdown
import CodeSurvey.Security.Report

/-!
# The security report

The score, how many findings there are of what kind, and every finding, the most severe ones first.
-/

namespace CodeSurvey.Report

open CodeSurvey.Security (Finding Severity Summary)

/-- Whether one finding comes before another: more severe ones first, then by path, line and
rule. -/
def worseFirst (a b : Finding) : Bool :=
  let rank (f : Finding) := Severity.all.idxOf f.rule.severity
  ((compare (rank a) (rank b)).then <| (compare a.filePath b.filePath).then <|
    (compare a.line b.line).then (compare a.rule.id b.rule.id)).isLE

/-- Findings in the order in which they are reported, where issues stand before vulnerabilities if
nothing else tells them apart. -/
def inReportOrder (r : Security.Report) : List Finding :=
  (r.listed .issue ++ r.listed .vulnerability).mergeSort worseFirst

/-- The title of the findings of one severity. -/
def severityTitle : Severity → String
  | .critical => "Critical"
  | .high => "High"
  | .medium => "Medium"
  | .low => "Low"
  | .info => "Info"

/-- One finding. -/
def findingText (f : Finding) : String :=
  "\n### " ++ f.rule.id ++ ": " ++ f.rule.title ++ "\n\n"
    ++ "**Location:** " ++ code (f.filePath ++ ":" ++ Format.natText f.line)
    ++ (f.rule.cwe.map fun n => " | **" ++ n ++ "**").getD "" ++ "\n\n"
    ++ f.rule.description ++ "\n\n"
    ++ "```\n" ++ shown f.code ++ "\n```\n\n"
    ++ "**Recommendation:** " ++ f.rule.recommendation ++ "\n\n"

/-- The findings of one severity. -/
def severityText (findings : List Finding) (s : Severity) : String :=
  let group := findings.filter fun f => f.rule.severity == s
  "\n\n"
    ++ (if group.isEmpty then ""
      else "\n## " ++ severityTitle s ++ "\n\n" ++ String.join (group.map findingText) ++ "\n")
    ++ "\n"

/-- The security report. -/
def securityReport (r : Security.Report) : String :=
  let summary := r.summary
  let findings := inReportOrder r
  "# Security Report\n\n"
    ++ "**Score:** " ++ summary.score.text ++ "/100 (grade " ++ summary.grade ++ ")\n"
    ++ "**Findings:** " ++ Format.natText summary.total ++ " in "
    ++ Format.natText summary.affectedFiles ++ " file" ++ plural summary.affectedFiles ++ "\n\n"
    ++ "> Findings come from pattern matching and may include false positives.\n"
    ++ "> Review each one before acting on it.\n\n"
    ++ "## By Severity\n\n" ++ head ["Severity", "Count"]
    ++ String.join (summary.bySeverity.map fun e => row [e.1.name, Format.natText e.2]) ++ "\n"
    ++ titled "By Category" (head ["Category", "Count"])
      (summary.byCategory.map fun e => row [e.1, Format.natText e.2])
    ++ String.join (Severity.all.map (severityText findings)) ++ "\n"

end CodeSurvey.Report
