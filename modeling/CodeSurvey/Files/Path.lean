import CodeSurvey.Text.Basic

/-!
# Paths

Paths as texts with slashes. Conventions are checked on the anchored form, which starts with a slash
and has no backslashes; names and endings are those of the last component.
-/

namespace CodeSurvey.Files

open Text

/-! ## Anchored paths -/

/-- The path with slashes only. -/
def slashed (path : List Char) : List Char :=
  replaceChar '\\' '/' path

/-- The path with slashes only and with one in front. -/
def anchored (path : List Char) : List Char :=
  let path := slashed path
  if path.head? == some '/' then path else '/' :: path

/-- The anchored path in lower case. -/
def anchoredLower (path : List Char) : List Char :=
  lower (anchored path)

/-- What follows the last slash or backslash. -/
def fileName (path : List Char) : List Char :=
  afterLast '/' (slashed path)

/-! ## Components -/

/-- A path as its components: the root, if it has one, and the names that are neither empty nor a
single point. -/
structure Path where
  root : List Char
  names : List (List Char)
  deriving Repr, DecidableEq

/-- The root of a path: exactly two slashes in front are a root of their own. -/
def rootOf (path : List Char) : List Char :=
  match path with
  | '/' :: '/' :: '/' :: _ => ['/']
  | '/' :: '/' :: _ => ['/', '/']
  | '/' :: _ => ['/']
  | _ => []

/-- The components of a path. -/
def Path.ofText (path : List Char) : Path :=
  ⟨rootOf path, (splitAt '/' path).filter fun name => !name.isEmpty && name != ['.']⟩

/-- The written form; the path without components is a single point. -/
def Path.text (p : Path) : List Char :=
  let text := p.root ++ join ['/'] p.names
  if text.isEmpty then ['.'] else text

/-- The root and the names. -/
def Path.parts (p : Path) : List (List Char) :=
  if p.root.isEmpty then p.names else p.root :: p.names

/-- The last name. -/
def Path.name (p : Path) : List Char :=
  p.names.getLast?.getD []

/-- A path with one more name. -/
def Path.child (p : Path) (name : List Char) : Path :=
  { p with names := p.names ++ [name] }

/-! ## Endings -/

/-- Splits a name before its last point, if something stands on either side of that. -/
def splitEnding (name : List Char) : List Char × List Char :=
  match lastIndexOf? '.' name with
  | some i => if 0 < i && i + 1 < name.length then (name.take i, name.drop i) else (name, [])
  | none => (name, [])

/-- The ending of a name, with its point. -/
def ending (name : List Char) : List Char :=
  (splitEnding name).2

/-- The last name of a path. -/
def nameOf (path : List Char) : List Char :=
  (Path.ofText (slashed path)).name

/-- The last name of a path without its ending. -/
def stem (path : List Char) : List Char :=
  (splitEnding (nameOf path)).1

/-! ## Exclusion -/

/-- Whether a pattern excludes a path. A pattern that starts with a star names the end of the path;
with a second star it names a part of the last name and the end of that name. Any other pattern
names a component. -/
def excludedBy (path : Path) (pattern : List Char) : Bool :=
  match pattern with
  | '*' :: rest =>
    if rest.contains '*' then
      contains path.name (beforeFirst '*' rest)
        && endsWith path.name (rest.drop ((beforeFirst '*' rest).length + 1))
    else endsWith path.text rest
  | _ => path.parts.contains pattern

/-- Whether one of the patterns excludes a path. -/
def excluded (path : Path) (patterns : List (List Char)) : Bool :=
  patterns.any (excludedBy path)

end CodeSurvey.Files
