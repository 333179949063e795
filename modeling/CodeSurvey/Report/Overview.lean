import CodeSurvey.Report.Markdown
import CodeSurvey.Survey.Analysis

/-!
# The summary

An overview of an analysis: its numbers, then what was found where.
-/

namespace CodeSurvey.Report

open CodeSurvey.Survey (Analysis)

/-- Where something stands, as code. -/
def location (filePath : String) (line : Nat) : String :=
  code (filePath ++ ":" ++ Format.natText line)

/-- The numbers of an analysis. -/
def metricRows (a : Analysis) : List String :=
  let s := a.statistics
  [head ["Metric", "Value"],
    row ["Files", grouped s.files],
    row ["Lines", grouped s.lines.total ++ " (" ++ grouped s.lines.code ++ " code, "
      ++ grouped s.lines.comment ++ " comment, " ++ grouped s.lines.blank ++ " blank)"],
    row ["Functions", Format.natText s.functions],
    row ["Classes", Format.natText s.entities.classes],
    row ["Components", Format.natText s.entities.components],
    row ["API Routes", Format.natText s.entities.routes],
    row ["Quality Score", Format.intText a.quality ++ "/100"],
    row ["Security Score",
      a.security.summary.score.text ++ "/100 (" ++ a.security.summary.grade ++ ")"]]

/-- The summary. -/
def overview (a : Analysis) : String :=
  "# Codebase Summary\n\n" ++ String.join (metricRows a)
    ++ titled "Detected Patterns" "" (a.architecture.map item)
    ++ titled "Languages" (head ["Language", "Files"])
      (a.statistics.languages.map fun e => row [e.1, Format.natText e.2])
    ++ titled "API Routes" (head ["Method", "Path", "Protected", "Location"])
      ((a.entities .routes).map fun (r : Route) =>
        row [code r.method, code r.path, yesNo r.isProtected, location r.filePath r.lineStart])
    ++ titled "Most Complex Functions" (head ["Function", "Complexity", "Location"])
      (a.statistics.mostComplex.map fun f =>
        row [code f.name, Format.natText f.complexity, location f.filePath f.lineStart])
    ++ titled "Environment Variables" (head ["Name", "Required", "Used In"])
      (a.environment.map fun v => row [code v.name, yesNo v.isRequired,
        Format.natText v.usedIn.length ++ " file" ++ plural v.usedIn.length])
    ++ titled "Extraction Errors" ""
      (a.problems.map fun p => item
        (code p.filePath ++ " (" ++ p.component ++ "): " ++ shown p.message))

end CodeSurvey.Report
