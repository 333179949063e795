import CodeSurvey.Files.Path
import CodeSurvey.Format.Quoted

/-!
# Directory trees

A tree of directories and files, and how paths lead through it. Paths that do not start at the root
start at the working directory; two points lead up, also from the root.
-/

namespace CodeSurvey.Files

/-- A file with its bytes, or a directory with its entries. -/
inductive Entry where
  | file (bytes : ByteArray)
  | directory (entries : List (String × Entry))

/-- Whether an entry is a directory. -/
def Entry.isDirectory : Entry → Bool
  | directory _ => true
  | file _ => false

/-- The names that lead from the root to an entry. -/
abbrev Names := List String

/-- The entry to which names lead from another. -/
def Entry.at? : Entry → Names → Option Entry
  | e, [] => some e
  | .directory entries, name :: rest => (entries.lookup name).bind fun e => e.at? rest
  | .file _, _ :: _ => none

/-- Puts an entry where names lead; directories on the way are made if they are not there. -/
def Entry.put (new : Entry) : Names → Entry → Entry
  | [], _ => new
  | name :: rest, e =>
    let entries := match e with
      | .directory entries => entries
      | .file _ => []
    let inner := (entries.lookup name).getD (.directory [])
    -- The order of entries does not matter; whoever lists them sorts them.
    .directory (entries.filter (·.1 != name) ++ [(name, Entry.put new rest inner)])

/-! ## Errors -/

/-- Why a file cannot be read or written. -/
inductive FileError where
  /-- There is no such file, or no such directory on the way. -/
  | missing (path : String)
  /-- Something on the way is no directory. -/
  | notDirectory (path : String)
  /-- It is a directory. -/
  | isDirectory (path : String)
  deriving Repr, DecidableEq

/-- What is told about a file that cannot be read or written. -/
def FileError.message : FileError → String
  | missing path => "[Errno 2] No such file or directory: " ++ Format.quoted path
  | notDirectory path => "[Errno 20] Not a directory: " ++ Format.quoted path
  | isDirectory path => "[Errno 21] Is a directory: " ++ Format.quoted path

/-! ## Paths in trees -/

/-- A tree and where in it work is done. -/
structure Disk where
  root : Entry
  workingDirectory : Names

namespace Disk

/-- Where a path leads, as names from the root; the last of them need not exist. -/
def follow (d : Disk) (path : String) : Names → Names → Except FileError Names
  | here, [] => .ok here
  | here, name :: rest =>
    match d.root.at? here with
    | some (.directory _) =>
      d.follow path (if name == ".." then here.dropLast else here ++ [name]) rest
    | some (.file _) => .error (.notDirectory path)
    | none => .error (.missing path)

/-- Where a path starts, and its names. -/
def start (d : Disk) (path : String) : Names × Names :=
  let p := Path.ofText path.toList
  (if p.root.isEmpty then d.workingDirectory else [], p.names.map String.ofList)

/-- Where a path leads. -/
def locate (d : Disk) (path : String) : Except FileError Names :=
  let (here, names) := d.start path
  d.follow path here names

/-- The entry to which a path leads. -/
def entry? (d : Disk) (path : String) : Option Entry :=
  match d.locate path with
  | .ok names => d.root.at? names
  | .error _ => none

/-- Where a path leads if nothing is looked up: two points cancel the name before them. -/
def absolute (d : Disk) (path : String) : Names :=
  let (here, names) := d.start path
  names.foldl (fun acc name => if name == ".." then acc.dropLast else acc ++ [name]) here

/-- The bytes of the file to which a path leads. -/
def read (d : Disk) (path : String) : Except FileError ByteArray := do
  match d.root.at? (← d.locate path) with
  | some (.file bytes) => pure bytes
  | some (.directory _) => throw (.isDirectory path)
  | none => throw (.missing path)

/-- Writes a file; the directory that is to hold it has to be there. -/
def write (d : Disk) (path text : String) : Except FileError (Names × Disk) := do
  let names ← d.locate path
  match d.root.at? names, d.root.at? names.dropLast with
  | some (.directory _), _ => throw (.isDirectory path)
  | _, some (.directory _) =>
    pure (names, { d with root := Entry.put (.file text.toUTF8) names d.root })
  | _, some (.file _) => throw (.notDirectory path)
  | _, none => throw (.missing path)

end Disk

/-- The written form of a path from the root. -/
def pathText (names : Names) : String :=
  "/" ++ "/".intercalate names

end CodeSurvey.Files
