import CodeSurvey.Pattern.Matching
import CodeSurvey.Settings.Basic
import CodeSurvey.Text.Lines

/-!
# Reads and declarations of environment variables

Which variables source files read, and which ones environment files declare. Only names are kept,
never values.
-/

namespace CodeSurvey.Environment

open Text Pattern

/-! ## Reads -/

/-- One read of a variable. -/
structure Usage where
  name : String
  filePath : String
  /-- Something else is used where the variable is missing. -/
  hasFallback : Bool
  deriving Repr, DecidableEq

/-- The name of a variable. -/
def variableName : Pattern :=
  one (.union .letters (.char '_')) ++ many (one (.unions [.letters, .range '0' '9', .char '_']))

/-- The name of a variable, kept. -/
def keptName : Pattern :=
  capture "name" variableName

/-- A quote. -/
def quote : Pattern :=
  oneOf "\"'"

/-- The name of a variable between quotes, kept. -/
def quotedName : Pattern :=
  quote ++ keptName ++ quote

/-- The forms of reads. -/
def usagePatterns : List Pattern := [
  edge ++ lit "process.env." ++ keptName,
  edge ++ lit "process.env[" ++ spaces ++ quotedName ++ spaces ++ lit "]",
  edge ++ lit "import.meta.env." ++ keptName,
  notAfter (.unions [.word, .char '$', .char '.']) ++ lit "env(" ++ spaces ++ quotedName,
  edge ++ lit "os.environ" ++ alts [lit ".get" ++ spaces ++ lit "(", spaces ++ lit "["] ++ spaces
    ++ quotedName,
  edge ++ lit "os.getenv" ++ spaces ++ lit "(" ++ spaces ++ quotedName]

/-- How many characters after a read are looked at for a fallback. -/
def fallbackReach : Nat :=
  40

/-- An operator that takes another value where one is missing. -/
def fallbackOperator : Pattern :=
  textStart ++ spaces ++ opt (words [")", "]"]) ++ spaces ++ words ["||", "??"]

/-- A further argument. -/
def furtherArgument : Pattern :=
  textStart ++ spaces ++ lit ","

/-- What reads start with that take a fallback as a further argument. -/
def argumentForms : List String :=
  ["os.environ.get", "os.getenv", "env("]

/-- Whether a read with the given text has a fallback, judged by what follows it. -/
def hasFallback (read after : List Char) : Bool :=
  (fallbackOperator.matchStart? after).isSome
    || (argumentForms.any (fun form => startsWith read form.toList)
      && (furtherArgument.matchStart? (after.dropWhile fun c => c == '"' || c == '\'')).isSome)

/-- A read, given its match. -/
def usageOf (path : String) (content : List Char) (m : Match) : Usage :=
  ⟨String.ofList ((m.group? "name").getD []), path,
    hasFallback m.text ((content.drop m.stop).take fallbackReach)⟩

/-- The reads in a file, in the order of their places and, at one place, of the forms. -/
def usages (path : String) (content : List Char) : List Usage :=
  -- The sort below is stable: at one place the forms keep their order.
  let found := (usagePatterns.map fun p => p.findAll content).flatten
  (found.mergeSort fun a b => a.start ≤ b.start).map (usageOf path content)

/-! ## Declarations -/

/-- A declaration in an environment file. -/
def declarationPattern : Pattern :=
  textStart ++ opt (lit "export" ++ spaces1) ++ keptName ++ spaces ++ lit "="

/-- The name that a line declares; comments declare nothing. -/
def declaredName? (line : List Char) : Option String := do
  let line := trim line
  if line.head? == some '#' then none
  else
    let m ← declarationPattern.matchStart? line
    (m.group? "name").map String.ofList

/-- The names that an environment file declares, in order. -/
def declaredNames (content : List Char) : List String :=
  (breakLines content).filterMap declaredName?

/-- The languages whose files are searched for reads, as settings say. -/
def languagesOf (settings : Settings) : Except SettingsError (List String) := do
  let env ← settings.sectionNamed "env"
  pure (env.strings "languages" [])

end CodeSurvey.Environment
