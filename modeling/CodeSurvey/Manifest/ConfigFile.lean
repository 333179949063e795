import CodeSurvey.Files.Classify

/-!
# Configuration files

Configuration files are known by what their names hold. The first piece that a name holds says what
the file is for.
-/

namespace CodeSurvey.Manifest

open Text

/-- A configuration file. -/
structure ConfigFile where
  name : String
  filePath : String
  type : String
  purpose : String
  deriving Repr, DecidableEq

/-- Pieces of names and what files with them are for; particular pieces stand first. -/
def configPurposes : List (String × String) := [
  ("package.json", "Package dependencies and scripts"),
  ("tsconfig", "TypeScript configuration"),
  ("jsconfig", "JavaScript project configuration"),
  ("next.config", "Next.js configuration"),
  ("vite.config", "Vite build configuration"),
  ("tailwind.config", "Tailwind CSS styling"),
  ("postcss", "PostCSS processing"),
  ("eslint", "Code linting rules"),
  ("prettier", "Code formatting"),
  ("jest.config", "Test runner configuration"),
  ("vitest.config", "Test runner configuration"),
  ("schema.prisma", "Database schema"),
  ("pyproject.toml", "Python project metadata"),
  ("docker-compose", "Container orchestration"),
  ("dockerfile", "Container configuration"),
  ("docker", "Container configuration"),
  (".env", "Environment variables")]

/-- Formats and the endings that mean them. -/
def formatEndings : List (String × List String) := [
  ("json", [".json"]),
  ("yaml", [".yaml", ".yml"]),
  ("toml", [".toml"]),
  ("js", [".js", ".cjs", ".mjs"]),
  ("ts", [".ts", ".cts", ".mts"])]

/-- The format of a file, by the end of its path. -/
def formatOf (path : List Char) : String :=
  let path := lower path
  match formatEndings.find? fun e => e.2.any fun s => endsWith path s.toList with
  | some e => e.1
  | none => "other"

/-- The configuration file that a path names, if it names one. -/
def configFile? (path : String) : Option ConfigFile := do
  let name := Files.fileName path.toList
  let (_, purpose) ← configPurposes.find? fun e => contains (lower name) e.1.toList
  some ⟨String.ofList name, path, formatOf name, purpose⟩

/-- The configuration files among classified files. -/
def configFiles (files : List FileInfo) : List ConfigFile :=
  files.filterMap fun f => configFile? f.path

/-- A configuration file as a value. -/
def ConfigFile.toValue (c : ConfigFile) : Value :=
  .map [("name", .text c.name), ("file_path", .text c.filePath), ("type", .text c.type),
    ("purpose", .text c.purpose)]

end CodeSurvey.Manifest
