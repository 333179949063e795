import CodeSurvey.Pattern.Matching
import CodeSurvey.Security.Severity
import CodeSurvey.Security.Surroundings

/-!
# Rules

A rule looks for a pattern in each line of the files in its scope. Where its mitigation holds, the
line is passed over.
-/

namespace CodeSurvey.Security

/-- Where a finding is listed: flaws that can be exploited apart from everything else. -/
inductive Listing where
  | issue
  | vulnerability
  deriving Repr, DecidableEq

/-- A rule. -/
structure Rule where
  id : String
  category : String
  severity : Severity
  title : String
  pattern : Pattern
  description : String
  recommendation : String
  /-- The number of the weakness in the common enumeration. -/
  cwe : Option String
  listing : Listing := .issue
  mitigation : Condition := .never
  scope : Scope := .everywhere
  deriving Repr, DecidableEq

/-- Whether a rule reports a line: its pattern occurs and nothing mitigates it. -/
def Rule.reports (r : Rule) (o : Outlook) (p : Place) : Bool :=
  r.pattern.occursIn p.line && !r.mitigation.holds o p

end CodeSurvey.Security
