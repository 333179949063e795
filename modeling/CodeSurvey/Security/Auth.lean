import CodeSurvey.Pattern.Matching
import CodeSurvey.Pattern.Reader
import CodeSurvey.Settings.Defaults

/-!
# Authentication

A file checks who is asking if one of the configured patterns occurs in it. Routes and security
rules ask the same question here, so their answers agree.
-/

namespace CodeSurvey.Security

/-- Patterns of which one has to occur in a file that checks who is asking. -/
structure Auth where
  patterns : List Pattern
  deriving Repr, DecidableEq

/-- The patterns that are written in these texts; what is no pattern is passed over. -/
def Auth.ofTexts (texts : List String) : Auth :=
  ⟨texts.filterMap fun t => Pattern.ofText? t.toList false⟩

/-- The patterns that hold by default. -/
def Auth.standard : Auth :=
  .ofTexts defaultAuthPatterns

/-- The given patterns, or the default ones if none are given. -/
def Auth.ofValue : Option Value → Auth
  | some v => if v.isTruthy then .ofTexts v.strings else .standard
  | none => .standard

/-- The patterns that settings name. -/
def Auth.ofSettings (settings : Settings) : Except SettingsError Auth := do
  let auth ← settings.sectionNamed "auth"
  pure (.ofValue (Value.lookup? "patterns" auth))

/-- Whether one of the patterns occurs in a text. -/
def Auth.protects (a : Auth) (text : List Char) : Bool :=
  a.patterns.any (·.occursIn text)

end CodeSurvey.Security
