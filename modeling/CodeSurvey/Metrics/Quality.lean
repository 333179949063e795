import CodeSurvey.Metrics.Architecture
import CodeSurvey.Metrics.Nesting

/-!
# Quality scores

A score starts at a hundred points. High average complexity, long functions and deeply nested files
take points off; some architectures add points.
-/

namespace CodeSurvey.Metrics

/-- What takes points off and what adds them. -/
structure QualityScale where
  /-- Averages and what exceeding them costs, the highest average first. -/
  averages : List (Number × Number)
  longFunction : Number
  deepFile : Number
  /-- Points by the name of an architecture. Settings may hold something here that is no section;
  then nothing can be looked up. -/
  bonuses : Except SettingsError (List (String × Number))

/-- Whether one pair of numbers comes before or with another when the highest pairs come first. -/
def highestFirst (a b : Number × Number) : Bool :=
  b.1.lt a.1 || (b.1 == a.1 && b.2.le a.2)

/-- A pair of numbers in settings. -/
def pair? : Value → Option (Number × Number)
  | .list [a, b] => do some (← a.number?, ← b.number?)
  | _ => none

/-- The scale that settings describe. -/
def QualityScale.ofSettings (settings : Settings) : Except SettingsError QualityScale := do
  let quality ← settings.sectionNamed "quality"
  let averages := match Value.lookup? "average_complexity_penalties" quality with
    | some (.list pairs) => pairs.filterMap pair?
    | some _ => []
    | none => defaultPenalties.map fun (p : Int × Int) => (Number.int p.1, Number.int p.2)
  let bonuses := match Value.lookup? "bonuses" quality with
    | some v => (asSection .get v).map fun entries =>
      entries.filterMap fun e => e.2.number?.map fun n => (e.1, n)
    | none => .ok (defaultBonuses.map fun e => (e.1, .int e.2))
  pure {
    averages := averages.mergeSort highestFirst
    longFunction := quality.number "long_function_penalty" 3
    deepFile := quality.number "deep_nesting_penalty" 2
    bonuses }

/-- What the highest average that is exceeded costs. -/
def QualityScale.averageCost (q : QualityScale) (average : Number) : Number :=
  ((q.averages.find? fun p => p.1.lt average).map (·.2)).getD 0

/-- The score for a report and the architectures that were found, each of which counts once. -/
def QualityScale.score (q : QualityScale) (report : ComplexityReport) (found : List String) :
    Except SettingsError Int := do
  let found := found.eraseDups
  let bonuses ← if found.isEmpty then pure [] else q.bonuses
  let points := (100 : Number) - q.averageCost report.average
    - q.longFunction * .int report.longFunctions.length
    - q.deepFile * .int report.deepFiles.length
    + Number.sum (found.map fun name => (bonuses.lookup name).getD 0)
  pure (max 0 (min 100 points.toInt))

end CodeSurvey.Metrics
