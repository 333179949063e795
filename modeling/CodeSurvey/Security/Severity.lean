import CodeSurvey.Settings.Defaults

/-!
# Severities

Findings are graded in five steps. Each step has a weight; the score of a set of findings is what
is left of a hundred points once all weights have been taken off.
-/

namespace CodeSurvey.Security

/-- How severe a finding is. -/
inductive Severity where
  | critical
  | high
  | medium
  | low
  | info
  deriving Repr, DecidableEq, Inhabited

namespace Severity

/-- All severities, the most severe first. -/
def all : List Severity :=
  [critical, high, medium, low, info]

/-- The name of a severity. -/
def name : Severity → String
  | critical => "critical"
  | high => "high"
  | medium => "medium"
  | low => "low"
  | info => "info"

/-- The severity with a name. -/
def ofName? (name : String) : Option Severity :=
  all.find? (·.name == name)

theorem mem_all (s : Severity) : s ∈ all := by
  cases s <;> decide

/-- What is told about a word that names no severity. -/
def unknownMessage (word : String) : String :=
  Format.quoted word ++ " is not a valid Severity"

end Severity

/-! ## Scores -/

/-- What severities weigh, by name. -/
abbrev Weights := List (String × Number)

/-- The weight of a severity; one that is not mentioned weighs nothing. -/
def Weights.weight (weights : Weights) (s : Severity) : Number :=
  (weights.lookup s.name).getD 0

/-- A hundred less the weights of all severities, but never below zero or above a hundred. -/
def score (weights : Weights) (severities : List Severity) : Number :=
  Number.clamp 0 100 (100 - Number.sum (severities.map weights.weight))

/-- The least scores for the grades above the worst. -/
def gradeThresholds : List (Int × String) :=
  [(90, "A"), (80, "B"), (70, "C"), (60, "D")]

/-- The grade of a score. -/
def grade (score : Number) : String :=
  match gradeThresholds.find? fun t => Number.le (.int t.1) score with
  | some t => t.2
  | none => "F"

end CodeSurvey.Security
