import CodeSurvey.Settings.Basic

/-!
# Default settings

What holds where the user says nothing, and the starter file that documents it.
-/

namespace CodeSurvey

open Value (int texts)

/-! ## Sections -/

/-- Which languages count as code, as typed code and as markup code. -/
def defaultLanguages : Settings := [
  ("structural", texts ["ts", "tsx", "js", "jsx"]),
  ("typed", texts ["ts", "tsx"]),
  ("jsx", texts ["tsx", "jsx"]),
  ("extensions", .map [])]

/-- Patterns of anchored paths and their categories; the first that matches counts. -/
def defaultCategories : List (String × String) := [
  (".*(\\.test|\\.spec)\\.[jt]sx?$", "test"),
  (".*/(tests?|__tests__)/.*", "test"),
  (".*/api/.*/route\\.[jt]sx?$", "api-route"),
  (".*/pages/api/.*", "api-route"),
  (".*middleware.*\\.[jt]sx?$", "middleware"),
  (".*/controllers?/.*|.*\\.controller\\.[jt]s$", "controller"),
  (".*/services?/.*|.*\\.service\\.[jt]s$", "service"),
  (".*/(models?|entities|entity)/.*|.*\\.prisma$", "model"),
  (".*/hooks?/.*\\.[jt]sx?$", "hook"),
  (".*/components?/.*\\.[jt]sx$", "component"),
  (".*/(app|pages?)/.*\\.[jt]sx$", "page"),
  (".*/(types?|interfaces)/.*\\.ts$", "types"),
  (".*/(utils?|helpers?|lib)/.*", "util"),
  (".*\\.(json|ya?ml|toml)$|.*\\.config\\.[cm]?[jt]s$|.*/\\.env[^/]*$", "config")]

/-- How many characters of code are kept for each kind of entity. -/
def defaultCodeLimits : List (String × Int) := [
  ("function", 2000), ("class", 3000), ("interface", 1000), ("type", 1000), ("route", 2000),
  ("middleware", 1000), ("hook", 1500), ("component", 2000)]

/-- How far scans look and how much is kept. -/
def defaultLimits : Settings := [
  ("block_fallback_length", int 200),
  ("max_block_scan", int 2000000),
  ("max_signature_scan", int 5000),
  ("max_type_definition", int 2000),
  ("max_properties", int 50),
  ("code", .map (defaultCodeLimits.map fun e => (e.1, int e.2)))]

/-- Patterns of which one has to occur in a file that checks who is asking. -/
def defaultAuthPatterns : List String := [
  "\\brequireAuth\\b",
  "\\bgetSession\\b",
  "\\bgetServerSession\\b",
  "\\bwithAuth\\b",
  "\\bauthenticate\\b",
  "\\bisAuthenticated\\b",
  "\\bensureAuthenticated\\b",
  "\\bverifyToken\\b",
  "\\bjwt\\.verify\\b",
  "\\bcurrentUser\\b",
  "\\bgetAuth\\b",
  "\\bauth\\(\\s*\\)",
  "\\bcheckAuth\\b",
  "\\brequireUser\\b",
  "\\bvalidateSession\\b",
  "\\bgetToken\\b"]

/-- When functions count as long and files as deeply nested. -/
def defaultComplexity : Settings := [
  ("long_function_lines", int 100),
  ("nesting_indent", int 24),
  ("tab_width", int 4)]

/-- Penalties for an average complexity above a threshold. -/
def defaultPenalties : List (Int × Int) :=
  [(20, 20), (10, 10), (5, 5)]

/-- What detected patterns add to the quality score. -/
def defaultBonuses : List (String × Int) :=
  [("TypeScript", 5), ("Test Coverage", 10), ("Zod Validation", 5), ("Middleware Pattern", 3)]

/-- What the quality score is made of. -/
def defaultQuality : Settings := [
  ("average_complexity_penalties",
    .list (defaultPenalties.map fun p => .list [int p.1, int p.2])),
  ("long_function_penalty", int 3),
  ("deep_nesting_penalty", int 2),
  ("bonuses", .map (defaultBonuses.map fun e => (e.1, int e.2)))]

/-- What a finding of each severity takes from the security score. -/
def defaultWeights : List (String × Int) :=
  [("critical", 25), ("high", 15), ("medium", 5), ("low", 1), ("info", 0)]

/-- How security rules are run and counted. -/
def defaultSecurity : Settings := [
  ("enabled", .bool true),
  ("context_radius", int 5),
  ("wide_context_radius", int 10),
  ("max_line_length", int 2000),
  ("weights", .map (defaultWeights.map fun e => (e.1, int e.2))),
  ("disabled_rules", .list [])]

/-- What is left out when files are read from a directory, beside `defaultExclude`. -/
def defaultExclusion : Settings := [
  ("directories", .list []),
  ("extensions", .list []),
  ("patterns", .list []),
  ("max_file_bytes", int 1000000)]

/-- All sections. -/
def defaultSettings : Settings := [
  ("languages", .map defaultLanguages),
  ("categories", .map (defaultCategories.map fun e => (e.1, .text e.2))),
  ("limits", .map defaultLimits),
  ("auth", .map [("patterns", texts defaultAuthPatterns)]),
  ("complexity", .map defaultComplexity),
  ("quality", .map defaultQuality),
  ("security", .map defaultSecurity),
  ("env", .map [("languages", texts ["ts", "tsx", "js", "jsx", "py"])]),
  ("stats", .map [("top_n", int 10)]),
  ("cross_reference", .bool true),
  ("workers", int 4),
  ("exclude", .map defaultExclusion)]

/-- The settings of a user over the defaults. -/
def merge (user : Settings) : Settings :=
  mergeOver defaultSettings user

/-! ## Exclusions -/

/-- Patterns of files and directories that are never read from a directory. -/
def defaultExclude : List String := [
  "node_modules", "__pycache__", ".git", ".venv", "venv", "dist", "build", ".next", ".turbo",
  "coverage", ".pytest_cache", ".mypy_cache", "*.pyc", "*.pyo", ".DS_Store", "*.log",
  "*.egg-info", "*.min.js", "*.map", "*.lock", "package-lock.json", "*.png", "*.jpg", "*.jpeg",
  "*.gif", "*.ico", "*.woff", "*.woff2", "*.pdf", "*.zip"]

end CodeSurvey
