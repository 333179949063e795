import CodeSurvey.Files.Path
import CodeSurvey.Security.Auth
import CodeSurvey.Text.Cut
import CodeSurvey.Text.Lines

/-!
# Surroundings of a line

Whether a line is worth a finding may depend on what stands around it: on the same line, within so
many lines of it, or anywhere in the file. Letter case never matters here.
-/

namespace CodeSurvey.Security

open Text

/-! ## Lines in files -/

/-- A file as rules see it: its path, its text, and its lines, which may have been cut. -/
structure ScannedFile where
  path : List Char
  content : List Char
  lines : Array (List Char)

/-- The file with this text, its lines cut at a bound if there is one. -/
def ScannedFile.ofText (path content : List Char) (longest : Option Int) : ScannedFile :=
  let cutLine (line : List Char) := match longest with
    | some n => upTo line n
    | none => line
  ⟨path, content, ((Text.lines content).map cutLine).toArray⟩

/-- A line of a file; lines count from 0. -/
structure Place where
  file : ScannedFile
  index : Nat

namespace Place

/-- The line itself. -/
def line (p : Place) : List Char :=
  p.file.lines.getD p.index []

/-- The line with those around it up to a distance, joined by line feeds. -/
def window (p : Place) (radius : Int) : List Char :=
  join ['\n'] (cut p.file.lines.toList (max 0 (p.index - radius)) (p.index + radius + 1))

end Place

/-! ## Conditions -/

/-- The distances that count as near and as wide. -/
structure Radii where
  near : Int
  wide : Int
  deriving Repr, DecidableEq

/-- One of the two distances. -/
inductive Reach where
  | near
  | wide
  deriving Repr, DecidableEq

/-- How far a reach extends. -/
def Radii.of (radii : Radii) : Reach → Int
  | .near => radii.near
  | .wide => radii.wide

/-- A condition on a line and what stands around it. Markers are texts, one of which has to
occur. -/
inductive Condition where
  | never
  | onLine (markers : List String)
  | inFile (markers : List String)
  | around (markers : List String) (reach : Reach)
  /-- None of the markers stands within reach. -/
  | lacksAround (markers : List String) (reach : Reach)
  /-- The file checks who is asking. -/
  | fileProtected
  | either (c d : Condition)
  deriving Repr, DecidableEq

/-- Whether one of the markers occurs in a text, with letter case ignored. -/
def hasMarker (markers : List String) (text : List Char) : Bool :=
  containsAny (lower text) (markers.map fun m => lower m.toList)

/-- What conditions depend on besides the line. -/
structure Outlook where
  auth : Auth
  radii : Radii

/-- Whether a condition holds of a line. -/
def Condition.holds (o : Outlook) (p : Place) : Condition → Bool
  | never => false
  | onLine markers => hasMarker markers p.line
  | inFile markers => hasMarker markers p.file.content
  | around markers reach => hasMarker markers (p.window (o.radii.of reach))
  | lacksAround markers reach => !hasMarker markers (p.window (o.radii.of reach))
  | fileProtected => o.auth.protects p.file.content
  | either c d => c.holds o p || d.holds o p

/-! ## Scopes -/

/-- Texts that the path of a test holds. -/
def testMarkers : List String :=
  [".test.", ".spec.", "/test/", "/tests/", "/__tests__/"]

/-- Whether the anchored path in lower case holds one of the given texts. -/
def pathHas (fragments : List String) (path : List Char) : Bool :=
  containsAny (Files.anchoredLower path) (fragments.map String.toList)

/-- Whether a path is that of a test. -/
def isTestPath (path : List Char) : Bool :=
  pathHas testMarkers path

/-- Files in which a rule is applied. -/
inductive Scope where
  | everywhere
  | under (fragments : List String)
  | outsideTests
  deriving Repr, DecidableEq

/-- Whether a file lies in a scope. -/
def Scope.covers (path : List Char) : Scope → Bool
  | everywhere => true
  | under fragments => pathHas fragments path
  | outsideTests => !isTestPath path

end CodeSurvey.Security
