import CodeSurvey.Files.Classify
import CodeSurvey.Files.Tree
import CodeSurvey.Text.Utf8

/-!
# Selecting files

Which files of a directory are read. Patterns leave out files and whole directories; endings, size
and bytes that no text holds leave out files. In each directory files come before subdirectories,
both by name.
-/

namespace CodeSurvey.Files

open Text

/-- What is left out. -/
structure Selection where
  patterns : List (List Char)
  /-- Endings in lower case, with their point. -/
  endings : List (List Char)
  /-- How many bytes a file may have, if there is a limit. -/
  most : Option Number

namespace Selection

/-- An ending in lower case, with its point. -/
def asEnding (text : String) : List Char :=
  let chars := text.toList
  lower (if chars.head? == some '.' then chars else '.' :: chars)

/-- The selection that settings describe, with further patterns, and with a limit that takes the
place of the one in the settings. -/
def ofSettings (settings : Settings) (further : List String) (most : Option Int) :
    Except SettingsError Selection := do
  let exclude ← settings.sectionNamed "exclude"
  let listed := exclude.strings "directories" [] ++ exclude.strings "patterns" []
  let standard := (Value.lookup? "max_file_bytes" exclude).bind Value.number?
  pure {
    patterns := (defaultExclude ++ further ++ listed).map String.toList
    endings := (exclude.strings "extensions" []).map asEnding
    most := (most.map Number.int) <|> standard }

/-! ## Single files -/

/-- Whether patterns leave a path out. -/
def leavesOut (s : Selection) (path : Path) : Bool :=
  excluded path s.patterns

/-- How many bytes at the front of a file are looked at to tell whether it is a text. -/
def sniffed : Nat :=
  8192

/-- Whether bytes may be a text: none of the first ones is zero. -/
def isText (bytes : ByteArray) : Bool :=
  !((bytes.extract 0 sniffed).toList.contains 0)

/-- Whether a file with this name and these bytes is read. -/
def admits (s : Selection) (name : List Char) (bytes : ByteArray) : Bool :=
  !s.endings.contains (lower (ending name))
    -- A file of exactly the greatest size is read.
    && !(s.most.any fun n => n.lt (.int bytes.size))
    && isText bytes

/-! ## Directories -/

/-- What an entry of a directory contributes. -/
inductive Contribution where
  | file (files : List SourceFile)
  | directory (files : List SourceFile)

/-- The files of a directory's entries, those that are files themselves first. -/
def arranged (entries : List (String × Contribution)) : List SourceFile :=
  let sorted := entries.mergeSort fun a b => decide (a.1 ≤ b.1)
  let own := sorted.filterMap fun
    | (_, .file files) => some files
    | _ => none
  let inner := sorted.filterMap fun
    | (_, .directory files) => some files
    | _ => none
  own.flatten ++ inner.flatten

mutual

/-- What an entry at a path contributes; files are named by the way from where the walk began. -/
def visit (s : Selection) (path : Path) (way : Names) : Entry → Contribution
  | .file bytes =>
    .file (if s.leavesOut path || !s.admits path.name bytes then []
      else [⟨"/".intercalate way, String.ofList (decode bytes), none⟩])
  | .directory entries =>
    .directory (if s.leavesOut path then [] else arranged (visitAll s path way entries))

/-- What the entries of a directory contribute. -/
def visitAll (s : Selection) (path : Path) (way : Names) :
    List (String × Entry) → List (String × Contribution)
  | [] => []
  | (name, e) :: rest =>
    (name, visit s (path.child name.toList) (way ++ [name]) e) :: visitAll s path way rest

end

/-- The files that are read from a directory at a path. The directory itself is never left out. -/
def load (s : Selection) (path : Path) : Entry → List SourceFile
  | .directory entries => arranged (s.visitAll path [] entries)
  | .file _ => []

end Selection

end CodeSurvey.Files
