import CodeSurvey.Pattern.Matching

/-!
# Decision points

The complexity of a piece of code is one more than the number of places where it decides: keywords
and operators, counted wherever they stand.
-/

namespace CodeSurvey.Metrics

open Pattern

/-- Keywords that decide. -/
def decisionKeywords : List String :=
  ["if", "else", "for", "while", "case", "catch"]

/-- A question mark of a conditional expression: no optional chaining, no default for nothing, no
optional member. -/
def conditionalPattern : Pattern :=
  notAfter (.char '?') ++ lit "?" ++ notFollowedBy (.ofString "?.:")

/-- The forms of decision points. -/
def decisionPatterns : List Pattern :=
  decisionKeywords.map (fun word => edge ++ lit word ++ edge)
    ++ [lit "&&", lit "||", conditionalPattern]

/-- One more than the number of decision points. -/
def complexity (code : List Char) : Nat :=
  decisionPatterns.foldl (fun n p => n + (p.findAll code).length) 1

end CodeSurvey.Metrics
