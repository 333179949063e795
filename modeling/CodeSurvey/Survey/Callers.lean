import CodeSurvey.Entity.Basic
import CodeSurvey.Text.Names

/-!
# Callers

Functions are known by name only, so a call of a name counts for every function of that name.
-/

namespace CodeSurvey.Survey

/-- Whether one function calls another by name and is not of that name itself. -/
def calls (caller callee : Function) : Bool :=
  caller.callsTo.contains callee.name && caller.name != callee.name

/-- The names of the functions that call a function, in order, each once. -/
def callersOf (functions : List Function) (callee : Function) : List String :=
  Text.sortedNames ((functions.filter fun caller => calls caller callee).map (·.name))

/-- The functions, each with its callers among them. -/
def withCallers (functions : List Function) : List Function :=
  functions.map fun f => { f with calledBy := callersOf functions f }

end CodeSurvey.Survey
