import CodeSurvey.Distinct
import CodeSurvey.Entity.Basic
import CodeSurvey.Files.Classify
import CodeSurvey.Format.Json.Reader
import CodeSurvey.Format.Toml.Reader

/-!
# Dependencies

What manifests declare: a package file, a project file and requirements files. Only the files that
lie closest to the root count, so what is nested deeper never matters. A manifest that cannot be
read declares nothing.
-/

namespace CodeSurvey.Manifest

open Text Pattern

/-! ## Records -/

/-- Where a package comes from. -/
inductive Ecosystem where
  | npm
  | pypi
  deriving Repr, DecidableEq

/-- The name of an ecosystem. -/
def Ecosystem.name : Ecosystem → String
  | npm => "npm"
  | pypi => "pypi"

/-- A package and the version that is asked for. -/
structure Dependency where
  name : String
  version : String
  ecosystem : Ecosystem
  sourceFile : String
  deriving Repr, DecidableEq

/-- What is needed to run, and what only to develop. -/
structure Dependencies where
  runtime : List Dependency := []
  development : List Dependency := []
  deriving Repr, DecidableEq

instance : Append Dependencies :=
  ⟨fun a b => ⟨a.runtime ++ b.runtime, a.development ++ b.development⟩⟩

/-! ## Files at the root -/

/-- How many directories a path leads through. -/
def depth (path : List Char) : Nat :=
  let inner := (Files.slashed path).dropWhile (· == '/')
  count '/' (dropEndWhile (· == '/') inner)

/-- Whether a file lies closer to the root than another or, at the same depth, comes before it by
path. -/
def closer (a b : SourceFile) : Bool :=
  ((compare (depth a.path.toList) (depth b.path.toList)).then (compare a.path b.path)).isLE

/-- The file closest to the root. -/
def closest? (files : List SourceFile) : Option SourceFile :=
  (files.mergeSort closer).head?

/-- The files as close to the root as any of them, in the order of their paths. -/
def shallowest (files : List SourceFile) : List SourceFile :=
  let depthOf (f : SourceFile) := depth f.path.toList
  match (files.map depthOf).min? with
  | some least =>
    (files.mergeSort fun a b => decide (a.path ≤ b.path)).filter fun f => depthOf f == least
  | none => []

/-! ## Requirements -/

/-- The name of a package, perhaps with extras in brackets, then its version. -/
def requirementPattern : Pattern :=
  let letters := CharSet.union .letters (.range '0' '9')
  textStart ++ capture "name" (one letters ++ many (one (.union letters (.ofString "._-"))))
    ++ opt (lit "[" ++ many (noneOf "]") ++ lit "]") ++ spaces ++ capture "version" (many inLine)
    ++ anchor .lastLineEnd

/-- The name and the version of a requirement, without its conditions and comments. -/
def requirement? (text : List Char) : Option (String × String) := do
  let m ← requirementPattern.matchStart? (trim (beforeFirst '#' (beforeFirst ';' text)))
  let version := trim ((m.group? "version").getD [])
  some (String.ofList (lower ((m.group? "name").getD [])),
    if version.isEmpty then "*" else String.ofList version)

/-- The dependency that a line of a requirements file declares. Comments and options declare
none. -/
def requirementLine? (path : String) (line : List Char) : Option Dependency := do
  let line := trim line
  if line.head? == some '#' || line.head? == some '-' then none
  else
    let (name, version) ← requirement? line
    some ⟨name, version, .pypi, path⟩

/-- Pieces of names of requirements files for development. -/
def developmentNames : Pattern :=
  ignoringCase (words ["dev", "test", "lint", "docs", "ci"])

/-- What a requirements file declares. -/
def requirementsFile (file : SourceFile) : Dependencies :=
  let found := (breakLines file.content.toList).filterMap (requirementLine? file.path)
  if developmentNames.occursIn (Files.fileName file.path.toList) then ⟨[], found⟩ else ⟨found, []⟩

/-! ## Package files -/

/-- The entries under a key; where something else stands, there are none. -/
def entriesAt (key : String) (entries : List (String × Value)) : List (String × Value) :=
  match Value.lookup? key entries with
  | some (.map inner) => inner
  | _ => []

/-- What a package file declares. -/
def packageFile (file : SourceFile) : Dependencies :=
  match Format.Json.read? file.content.toList with
  | some (.map entries) =>
    let declared (key : String) := (entriesAt key entries).map fun e =>
      (⟨e.1, Format.textOf e.2, .npm, file.path⟩ : Dependency)
    ⟨declared "dependencies", declared "devDependencies"⟩
  | _ => {}

/-! ## Project files -/

/-- The requirements in the list under a key; where something else stands, there are none. -/
def requirementsAt (key : String) (entries : List (String × Value)) : List (String × String) :=
  match Value.lookup? key entries with
  | some (.list xs) => xs.filterMap fun x => requirement? (Format.textOf x).toList
  | _ => []

/-- The version of an entry, which may be written as a mapping. -/
def entryVersion : Value → String
  | .map entries => ((Value.lookup? "version" entries).map Format.textOf).getD "*"
  | v => Format.textOf v

/-- Names and versions of the entries under a key. -/
def versionsAt (key : String) (entries : List (String × Value)) : List (String × String) :=
  (entriesAt key entries).map fun e => (e.1, entryVersion e.2)

/-- What a project file declares: optional and grouped requirements are for development, and neither
the project itself nor the language is a dependency. -/
def projectFile (file : SourceFile) : Dependencies :=
  match Format.Toml.read? file.content.toList with
  | some entries =>
    let project := entriesAt "project" entries
    let optional := entriesAt "optional-dependencies" project
    let poetry := entriesAt "poetry" (entriesAt "tool" entries)
    let groups := entriesAt "group" poetry
    let ownName := lower ((((Value.lookup? "name" project).map Format.textOf).getD "").toList)
    let record (e : String × String) : Option Dependency :=
      let name := lower e.1.toList
      if name == ownName || name == "python".toList then none
      else some ⟨String.ofList name, e.2, .pypi, file.path⟩
    ⟨(requirementsAt "dependencies" project ++ versionsAt "dependencies" poetry).filterMap record,
      (optional.flatMap (fun e => requirementsAt e.1 optional)
        ++ versionsAt "dev-dependencies" poetry
        ++ groups.flatMap (fun e => versionsAt "dependencies" (entriesAt e.1 groups))).filterMap
          record⟩
  | none => {}

/-! ## All manifests -/

/-- What tells dependencies apart. -/
def Dependency.key (d : Dependency) : Ecosystem × String :=
  (d.ecosystem, d.name)

/-- The kinds of manifests. -/
inductive ManifestKind where
  | package
  | project
  | requirements
  deriving Repr, DecidableEq

/-- The kind of manifest that a path names, if it names one. -/
def manifestKind? (path : String) : Option ManifestKind :=
  let name := Files.fileName path.toList
  if name == "package.json".toList then some .package
  else if name == "pyproject.toml".toList then some .project
  else if startsWith name "requirements".toList && endsWith name ".txt".toList then
    some .requirements
  else none

/-- What the manifests among the files declare: the package file first, then the project file, then
requirements files by path. -/
def dependencies (files : List SourceFile) : Dependencies :=
  let ofKind (k : ManifestKind) := files.filter fun f => manifestKind? f.path == some k
  let found := ((closest? (ofKind .package)).map packageFile).getD {}
    ++ ((closest? (ofKind .project)).map projectFile).getD {}
    ++ ((shallowest (ofKind .requirements)).map requirementsFile).foldl (· ++ ·) {}
  ⟨distinctBy Dependency.key found.runtime, distinctBy Dependency.key found.development⟩

/-- A dependency as a value. -/
def Dependency.toValue (d : Dependency) : Value :=
  .map [("name", .text d.name), ("version", .text d.version), ("ecosystem", .text d.ecosystem.name),
    ("source_file", .text d.sourceFile)]

end CodeSurvey.Manifest
