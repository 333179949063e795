/-!
# Lists of names

Names in the order of their code points, each once, and how often each occurs.
-/

namespace CodeSurvey.Text

/-- The names in order, each once. -/
def sortedNames (names : List String) : List String :=
  names.eraseDups.mergeSort fun a b => decide (a ≤ b)

/-- How often each name occurs, in the order of the names. -/
def tally (names : List String) : List (String × Nat) :=
  (sortedNames names).map fun name => (name, names.count name)

end CodeSurvey.Text
