import CodeSurvey.Environment.Usage
import CodeSurvey.Text.Names

/-!
# Environment variables

One record for each variable that is read or declared. Which paths and names come more than once, or
in which order, does not matter.
-/

namespace CodeSurvey.Environment

open Text

/-- A variable, where it is read, and where it is declared. -/
structure Variable where
  name : String
  usedIn : List String := []
  declaredIn : List String := []
  /-- Some read has no fallback. -/
  isRequired : Bool := true
  deriving Repr, DecidableEq

/-- The names that each environment file declares, by path. -/
abbrev Declarations := List (String × List String)

/-- The record of a name. -/
def recordOf (usages : List Usage) (declarations : Declarations) (name : String) : Variable :=
  let uses := usages.filter (·.name == name)
  { name
    usedIn := sortedNames (uses.map (·.filePath))
    declaredIn := sortedNames ((declarations.filter fun d => d.2.contains name).map (·.1))
    isRequired := uses.any fun u => !u.hasFallback }

/-- The records of all names, in the order of the names. -/
def variablesOf (usages : List Usage) (declarations : Declarations) : List Variable :=
  (sortedNames (usages.map (·.name) ++ declarations.flatMap (·.2))).map
    (recordOf usages declarations)

/-- A record as a value. -/
def Variable.toValue (v : Variable) : Value :=
  .map [("name", .text v.name), ("used_in", .texts v.usedIn), ("declared_in", .texts v.declaredIn),
    ("is_required", .bool v.isRequired)]

/-- A read as a value. -/
def Usage.toValue (u : Usage) : Value :=
  .map [("name", .text u.name), ("file_path", .text u.filePath),
    ("has_fallback", .bool u.hasFallback)]

end CodeSurvey.Environment
