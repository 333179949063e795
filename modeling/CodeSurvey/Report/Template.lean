import CodeSurvey.Report.Overview
import CodeSurvey.Report.Security

/-!
# Templates

The two reports are known by the names of the files that may take their place.
-/

namespace CodeSurvey.Report

/-- A report. -/
inductive Template where
  | security
  | summary
  deriving Repr, DecidableEq

/-- The name of the file that may take the place of a report. -/
def Template.fileName : Template → String
  | security => "security.md.j2"
  | summary => "summary.md.j2"

/-- The report that a file name means. -/
def Template.ofFileName? (name : String) : Option Template :=
  [security, summary].find? (·.fileName == name)

/-- The report of an analysis. -/
def Template.render (a : Survey.Analysis) : Template → String
  | security => securityReport a.security
  | summary => overview a

end CodeSurvey.Report
