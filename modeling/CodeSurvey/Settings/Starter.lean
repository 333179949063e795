/-!
# The starter file

A settings file with comments that a user can begin with. It shows the defaults.
-/

namespace CodeSurvey

/-- The lines of the starter file. -/
def starterLines : List String := [
  "# =============================================================================",
  "# repo-analyzer configuration",
  "# =============================================================================",
  "# Every key is optional. Values are merged one level deep over the defaults,",
  "# so a section you list replaces only the keys you set inside it.",
  "#",
  "# Run with:",
  "#   repo-analyzer . --config this_file.yaml -o analysis.json -v",
  "#",
  "# DISCLAIMER: this tool uses regular expressions, not compilers. It MAY miss",
  "# unusual syntax and MAY report patterns that only look risky. Verify",
  "# critical findings by hand.",
  "# =============================================================================",
  "",
  "# -----------------------------------------------------------------------------",
  "# LANGUAGES",
  "# -----------------------------------------------------------------------------",
  "# Structural languages get function/class/route extraction and security rules.",
  "languages:",
  "  structural: [ts, tsx, js, jsx]",
  "  extensions: \x7b\x7d",
  "    # \".es6\": js",
  "",
  "# -----------------------------------------------------------------------------",
  "# AUTHENTICATION MARKERS",
  "# -----------------------------------------------------------------------------",
  "# A route counts as protected when one of these regexes matches its file.",
  "# Listing patterns here REPLACES the default list.",
  "auth:",
  "  patterns:",
  "    - \"\\\\brequireAuth\\\\b\"",
  "    - \"\\\\bgetServerSession\\\\b\"",
  "    - \"\\\\bauth\\\\(\\\\s*\\\\)\"",
  "    # - \"\\\\bmyCustomGuard\\\\b\"",
  "",
  "# -----------------------------------------------------------------------------",
  "# COMPLEXITY / QUALITY",
  "# -----------------------------------------------------------------------------",
  "complexity:",
  "  long_function_lines: 100   # lines before a function counts as long",
  "  nesting_indent: 24         # indentation (columns) before a file counts as deeply nested",
  "",
  "# -----------------------------------------------------------------------------",
  "# SECURITY",
  "# -----------------------------------------------------------------------------",
  "security:",
  "  enabled: true",
  "  context_radius: 5          # lines inspected around a match for mitigations",
  "  disabled_rules: []         # e.g. [SEC022] to ignore console.log findings",
  "  weights:",
  "    critical: 25",
  "    high: 15",
  "    medium: 5",
  "    low: 1",
  "    info: 0",
  "",
  "# -----------------------------------------------------------------------------",
  "# EXECUTION",
  "# -----------------------------------------------------------------------------",
  "workers: 4                   # threads used for per-file analysis",
  "cross_reference: true        # fill called_by for functions",
  "",
  "# -----------------------------------------------------------------------------",
  "# EXCLUSIONS (applied when reading from disk)",
  "# -----------------------------------------------------------------------------",
  "exclude:",
  "  directories: []            # e.g. [vendor, fixtures]",
  "  extensions: []             # e.g. [.md]",
  "  patterns: []               # e.g. [\"*.generated.*\"]",
  "  max_file_bytes: 1000000"]

/-- The starter file. -/
def starterText : String :=
  String.join (starterLines.map (· ++ "\n"))

end CodeSurvey
