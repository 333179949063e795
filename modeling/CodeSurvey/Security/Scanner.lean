import CodeSurvey.Security.Rules

/-!
# Findings

A scanner applies the rules line by line. What it reports comes in the order of the lines and, on
one line, in that of the rules.
-/

namespace CodeSurvey.Security

open Text

/-- A line that a rule reports. -/
structure Finding where
  rule : Rule
  filePath : String
  /-- Counted from 1. -/
  line : Nat
  /-- The line without blanks around it, and not all of it if it is long. -/
  code : String
  deriving Repr, DecidableEq

/-- How many characters of a line a finding shows. -/
def longestSnippet : Nat :=
  200

/-- What scanning depends on. -/
structure Scanner where
  enabled : Bool
  /-- Lines are cut at this bound before they are looked at. -/
  longestLine : Option Int
  /-- The rules that are applied, in order. -/
  rules : List Rule
  outlook : Outlook

/-- The scanner that settings describe. -/
def Scanner.ofSettings (settings : Settings) (auth : Auth) : Except SettingsError Scanner := do
  let security ← settings.sectionNamed "security"
  let disabled := security.strings "disabled_rules" []
  pure {
    enabled := ((Value.lookup? "enabled" security).map (·.isTruthy)).getD true
    longestLine := security.bound? "max_line_length" 2000
    rules := Security.rules.filter fun r => !disabled.contains r.id
    outlook := {
      auth
      radii := ⟨security.int "context_radius" 5, security.int "wide_context_radius" 10⟩ } }

/-- What a rule reports on a line. -/
def Scanner.finding? (s : Scanner) (p : Place) (path : String) (r : Rule) : Option Finding :=
  if r.reports s.outlook p then
    some ⟨r, path, p.index + 1, String.ofList ((trim p.line).take longestSnippet)⟩
  else none

/-- What is found in a file. -/
def Scanner.scan (s : Scanner) (path : String) (content : List Char) : List Finding :=
  if s.enabled then
    let file := ScannedFile.ofText path.toList content s.longestLine
    let applied := s.rules.filter fun r => r.scope.covers file.path
    (List.range file.lines.size).flatMap fun index =>
      applied.filterMap (s.finding? ⟨file, index⟩ path)
  else []

end CodeSurvey.Security
