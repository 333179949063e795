import CodeSurvey.Environment.Usage
import CodeSurvey.Extract.Results
import CodeSurvey.Format.WholeNumber
import CodeSurvey.Metrics.Quality
import CodeSurvey.Metrics.Statistics
import CodeSurvey.Security.Report

/-!
# Surveyors

A surveyor is what settings come to: how files are classified, what is read out of them, and how
they are judged. It holds nothing else, so surveys do not depend on each other.
-/

namespace CodeSurvey.Survey

/-- What surveys depend on besides the files. -/
structure Surveyor where
  classifier : Files.Classifier
  /-- Asked for only if there are files. -/
  categories : Except SettingsError Files.Categories
  extractors : Except SettingsError Extract.Extractors
  environmentLanguages : List String
  scanner : Security.Scanner
  weights : Except SettingsError Security.Weights
  thresholds : Metrics.Thresholds
  scale : Metrics.QualityScale
  shown : Option Int
  /-- Whether functions are told who calls them. -/
  crossReference : Bool

/-- The number of workers has to be a whole number. How many there are changes no survey. -/
def checkWorkers (settings : Settings) : Except SettingsError Unit :=
  match Value.lookup? "workers" settings with
  | some (.text s) =>
    if (Format.wholeNumber? s.toList).isSome then .ok () else .error (.badValue (.notWhole 10 s))
  | _ => .ok ()

/-- The surveyor that the settings of a user describe, over the defaults. A number of workers that
is given apart takes the place of the one in the settings. -/
def Surveyor.ofSettings (user : Settings) (workers : Option Int) :
    Except SettingsError Surveyor := do
  let settings := merge user
  if workers.isNone then checkWorkers settings
  let classifier ← Files.Classifier.ofSettings settings
  let auth ← Security.Auth.ofSettings settings
  let environmentLanguages ← Environment.languagesOf settings
  let scanner ← Security.Scanner.ofSettings settings auth
  let thresholds ← Metrics.Thresholds.ofSettings settings
  let scale ← Metrics.QualityScale.ofSettings settings
  let shown ← Metrics.shownOf settings
  pure {
    classifier
    categories := Files.categoriesOf settings
    extractors := Extract.Extractors.ofSettings settings
    environmentLanguages
    scanner
    weights := Security.weightsOf settings
    thresholds
    scale
    shown
    crossReference := ((Value.lookup? "cross_reference" settings).map (·.isTruthy)).getD true }

end CodeSurvey.Survey
