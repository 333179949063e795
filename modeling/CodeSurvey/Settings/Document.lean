import CodeSurvey.Format.Yaml.Reader
import CodeSurvey.Settings.Defaults

/-!
# Settings documents

Settings are written as one mapping. An empty document, or one that holds nothing but an empty
value, sets nothing.
-/

namespace CodeSurvey

/-- The settings that a document describes, over the defaults. The path is told where the document
holds something else. -/
def Settings.ofDocument (path : String) (text : List Char) : Except SettingsError Settings := do
  let v ← (Format.Yaml.read text).mapError fun
    | .malformed => .noDocument
    | .badScalar fault => .badValue fault
  if !v.isTruthy then pure (merge [])
  else match v with
    | .map entries => pure (merge entries)
    | v => throw (.notAMapping path v.kind)

end CodeSurvey
