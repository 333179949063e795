import CodeSurvey.Files.Path
import CodeSurvey.Pattern.Matching
import CodeSurvey.Pattern.Reader
import CodeSurvey.Settings.Defaults
import CodeSurvey.Text.Lines

/-!
# Classification of files

Every file gets a language, a category and its size. The language comes from what the caller says,
else from the name, else from the first line; what is not recognised is "unknown".
-/

namespace CodeSurvey

open Text

/-! ## Files -/

/-- A file as it is given: its path, its text, and the language if the caller knows it. -/
structure SourceFile where
  path : String
  content : String
  language : Option String := none
  deriving Repr, DecidableEq, Inhabited

/-- What is known about a file before its text is read. -/
structure FileInfo where
  path : String
  language : String
  /-- Whether entities are read out of the file. -/
  structural : Bool
  category : String
  lines : Nat
  sizeBytes : Nat
  deriving Repr, DecidableEq, Inhabited

/-- A classification as a value. -/
def FileInfo.toValue (f : FileInfo) : Value :=
  .map [("path", .text f.path), ("language", .text f.language), ("structural", .bool f.structural),
    ("category", .text f.category), ("lines", .nat f.lines), ("size_bytes", .nat f.sizeBytes)]

namespace Files

/-! ## Languages -/

/-- Languages by ending. -/
def endingLanguages : List (String × String) := [
  (".ts", "ts"), (".mts", "ts"), (".cts", "ts"), (".tsx", "tsx"), (".js", "js"), (".mjs", "js"),
  (".cjs", "js"), (".jsx", "jsx"), (".py", "py"), (".pyi", "py"), (".prisma", "prisma"),
  (".json", "json"), (".yaml", "yaml"), (".yml", "yaml"), (".toml", "toml"), (".md", "md"),
  (".mdx", "mdx"), (".css", "css"), (".scss", "scss"), (".sass", "scss"), (".html", "html"),
  (".htm", "html"), (".vue", "vue"), (".svelte", "svelte"), (".graphql", "graphql"),
  (".gql", "graphql"), (".sql", "sql"), (".sh", "sh"), (".bash", "sh"), (".go", "go"),
  (".rs", "rs"), (".java", "java"), (".kt", "kt"), (".rb", "rb"), (".php", "php"), (".cs", "cs"),
  (".c", "c"), (".h", "c"), (".cpp", "cpp"), (".cc", "cpp"), (".hpp", "cpp"), (".swift", "swift")]

/-- Other names of languages that a caller may use. -/
def languageAliases : List (String × String) := [
  ("typescript", "ts"), ("typescriptreact", "tsx"), ("javascript", "js"),
  ("javascriptreact", "jsx"), ("node", "js"), ("python", "py"), ("python3", "py"),
  ("markdown", "md"), ("shell", "sh"), ("bash", "sh"), ("golang", "go"), ("rust", "rs"),
  ("ruby", "rb"), ("csharp", "cs"), ("c++", "cpp"), ("kotlin", "kt")]

/-- Languages by whole name. -/
def nameLanguages : List (String × String) := [
  ("dockerfile", "dockerfile"), ("makefile", "makefile"), ("procfile", "procfile")]

/-- Languages by the interpreter that the first line names. -/
def interpreterLanguages : List (String × String) := [
  ("node", "js"), ("deno", "ts"), ("bun", "ts"), ("python", "py"), ("python3", "py"),
  ("bash", "sh"), ("sh", "sh")]

/-- A first line that names an interpreter. -/
def interpreterPattern : Pattern :=
  .textStart ++ .lit "#!" ++ .spaces ++ .opt (.lit "/usr/bin/env" ++ .spaces1)
    ++ .few (.one (.compl .space))
    ++ .capture "interpreter" (.alts [.lit "node", .lit "python" ++ .opt (.lit "3"), .lit "bash",
      .lit "sh", .lit "deno", .lit "bun"])
    ++ .edge

/-- The language that a caller's word means. -/
def hintedLanguage? (hint : List Char) : Option String :=
  let word := String.ofList (lower (trim hint))
  let language := (languageAliases.lookup word).getD word
  if language.isEmpty then none else some language

/-- The language of the interpreter that the first line names. -/
def interpretedLanguage? (content : List Char) : Option String := do
  let m ← interpreterPattern.matchStart? content
  let name ← m.group? "interpreter"
  some ((interpreterLanguages.lookup (String.ofList name)).getD "unknown")

/-- The language that a name means, given the languages of endings. -/
def namedLanguage? (endings : List (String × String)) (name : List Char) : Option String :=
  let name := lower name
  match endings.lookup (String.ofList (ending (Path.ofText name).name)) with
  | some language => some language
  | none =>
    if startsWith name ".env".toList then some "dotenv"
    else if startsWith name "dockerfile".toList then some "dockerfile"
    else nameLanguages.lookup (String.ofList name)

/-! ## Classifiers -/

/-- What classification depends on. -/
structure Classifier where
  /-- Languages out of which entities are read. -/
  structural : List String
  endings : List (String × String)

/-- Puts the language of an ending before all that were known. -/
def addEnding (endings : List (String × String)) (e : String × Value) : List (String × String) :=
  let key := lower e.1.toList
  let key := if key.head? == some '.' then key else '.' :: key
  match e.2 with
  | .text language => (String.ofList key, language) :: endings
  | _ => endings

/-- The classifier that settings describe. -/
def Classifier.ofSettings (settings : Settings) : Except SettingsError Classifier := do
  let languages ← settings.sectionNamed "languages"
  let structural := languages.strings "structural" ["ts", "tsx", "js", "jsx"]
  let extra ← match Value.lookup? "extensions" languages with
    | some v => if v.isTruthy then asSection .items v else pure []
    | none => pure []
  pure ⟨structural, extra.foldl addEnding endingLanguages⟩

/-- The language of a file. -/
def Classifier.language (c : Classifier) (file : SourceFile) : String :=
  let hinted := file.language.bind fun hint => hintedLanguage? hint.toList
  (hinted <|> namedLanguage? c.endings (nameOf file.path.toList)
    <|> interpretedLanguage? file.content.toList).getD "unknown"

/-! ## Categories -/

/-- Patterns of anchored paths and the categories they mean, in the order in which they are
tried. -/
abbrev Categories := List (String × String)

/-- The categories that settings name. -/
def categoriesOf (settings : Settings) : Except SettingsError Categories := do
  let entries ← settings.sectionNamed "categories" .items
  pure (entries.filterMap fun e => match e.2 with
    | .text category => some (e.1, category)
    | _ => none)

/-- The category of a path: that of the first pattern that matches from the start of the anchored
path. What is no pattern is passed over. -/
def category (categories : Categories) (path : List Char) : String :=
  let target := anchored path
  let matching := categories.find? fun e =>
    (Pattern.ofText? e.1.toList false).any fun p => (p.matchStart? target).isSome
  (matching.map (·.2)).getD "other"

/-- Classifies a file. -/
def Classifier.classify (c : Classifier) (categories : Categories) (file : SourceFile) :
    FileInfo :=
  let language := c.language file
  { path := file.path
    language
    structural := c.structural.contains language
    category := category categories file.path.toList
    lines := (lines file.content.toList).length
    sizeBytes := file.content.utf8ByteSize }

end Files

end CodeSurvey
