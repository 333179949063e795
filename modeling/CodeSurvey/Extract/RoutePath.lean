import CodeSurvey.Entity.Basic
import CodeSurvey.Files.Path
import CodeSurvey.Pattern.Matching

/-!
# Paths of routes

Where routes are laid out as files, the path of a file gives the path of its route: groups vanish,
and bracketed names become parameters.
-/

namespace CodeSurvey.Extract

open Text Pattern

/-! ## Segments -/

/-- Characters of the name of a dynamic segment. -/
def segmentName : Pattern :=
  many1 (one (.union .word (.char '-')))

/-- A group, which does not appear in paths. -/
def groupSegment : Pattern :=
  lit "/(" ++ many (noneOf "/)") ++ lit ")"

/-- A segment that stands for any number of segments, whether or not it may be missing. -/
def catchAllSegment : Pattern :=
  lit "[" ++ opt (lit "[") ++ lit "..." ++ capture "name" segmentName ++ opt (lit "]") ++ lit "]"

/-- A segment that stands for one segment. -/
def dynamicSegment : Pattern :=
  lit "[" ++ capture "name" segmentName ++ lit "]"

/-- The path of a route from the path of its directory: groups vanish, a dynamic segment becomes a
name after a colon, with a star if it stands for many. A last segment "index" and slashes at the end
are dropped. -/
def routePath (raw : List Char) : List Char :=
  let path := groupSegment.replaceAll (fun _ => []) raw
  let path := catchAllSegment.replaceAll (fun m => ':' :: (m.group? "name").getD [] ++ ['*']) path
  let path := dynamicSegment.replaceAll (fun m => ':' :: (m.group? "name").getD []) path
  let index := "/index".toList
  let path := if endsWith path index then path.take (path.length - index.length) else path
  let path := dropEndWhile (· == '/') path
  if path.head? == some '/' then path else '/' :: path

/-- A parameter in a path: a name after a colon or an opening bracket. -/
def pathParameter : Pattern :=
  oneOf ":[" ++ capture "name" (many1 (noneOf "]/:*"))

/-- The parameters of a path. -/
def pathParameters (path : List Char) : List Parameter :=
  ((pathParameter.findAll path).filterMap (·.group? "name")).map fun name =>
    { name := String.ofList name, type := some "string" }

/-! ## Files of routes -/

/-- The ending of a script, at the end of a path. -/
def scriptEnding : Pattern :=
  lit "." ++ opt (oneOf "cm") ++ oneOf "jt" ++ lit "s" ++ opt (lit "x") ++ anchor .lastLineEnd

/-- The start of a path, or a slash. -/
def segmentStart : Pattern :=
  alts [textStart, lit "/"]

/-- A route file below the directory of an application. -/
def appRouterPattern : Pattern :=
  segmentStart ++ lit "app" ++ capture "path" (lit "/" ++ few inLine) ++ opt (lit "/")
    ++ lit "route" ++ scriptEnding

/-- A file below the directory of pages that answers requests. -/
def pagesRouterPattern : Pattern :=
  segmentStart ++ lit "pages" ++ capture "path" (lit "/api" ++ opt (lit "/" ++ many inLine))
    ++ scriptEnding

/-- The path that a route file answers: what lies between the application's directory and the file,
or, outside such a directory, from "/api/" on. -/
def appRouterPath (filePath : List Char) : List Char :=
  let path := Files.anchored filePath
  match (appRouterPattern.search? path).bind (·.group? "path") with
  | some raw => routePath raw
  | none =>
    let start : Int := match indexOf? "/api/".toList path with
      | some i => i
      | none => -1
    routePath (cut path start ((lastIndexOf? '/' path).getD 0))

/-- The path that a page answers, if it answers requests. -/
def pagesRouterPath? (filePath : List Char) : Option (List Char) :=
  ((pagesRouterPattern.search? (Files.anchored filePath)).bind (·.group? "path")).map routePath

end CodeSurvey.Extract
