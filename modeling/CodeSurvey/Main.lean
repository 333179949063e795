import CodeSurvey.CommandLine.Run
import Std.Time.DateTime

/-!
# The program

The outer layer: what a run may look at is taken from the disk beforehand, the run itself is a
function, and what it leaves behind is written afterwards.
-/

namespace CodeSurvey.Main

open Files (Disk Entry)

/-- What stands at a place of the disk. Of a directory, what is always left out is not taken. -/
partial def taken (place : IO.FS.DirEntry) : IO Entry := do
  if ← place.path.isDir then
    let patterns := defaultExclude.map String.toList
    let admitted := (← place.path.readDir).toList.filter fun e =>
      !Files.excluded (.ofText e.path.toString.toList) patterns
    return .directory (← admitted.mapM fun e => return (e.fileName, ← taken e))
  else return .file (← IO.FS.readBinFile place.path)

/-- The disk with what stands at a path; of a directory, with its entries only if they are
needed. -/
def look (disk : Disk) (path : String) (needsEntries : Bool) : IO Disk := do
  let names := disk.absolute path
  if (disk.root.at? names).isSome then return disk
  try
    let path := Files.pathText names
    let place : IO.FS.DirEntry := ⟨← IO.FS.realPath path, path⟩
    let entry ← if !needsEntries && (← place.path.isDir) then pure (Entry.directory [])
      else taken place
    return { disk with root := Entry.put entry names disk.root }
  catch _ => return disk

/-- The part of the disk that a run with options may look at. -/
def gathered (o : CommandLine.Options) : IO Disk := do
  let here := Files.Path.ofText (← IO.currentDir).toString.toList
  let disk : Disk := ⟨.directory [], here.names.map String.ofList⟩
  let disk ← look disk o.path true
  let overrides := o.templates.toList.flatMap fun directory =>
    [Report.Template.security, .summary].map fun t => directory ++ "/" ++ t.fileName
  let targets := (o.output.toList ++ o.securityReport.toList).flatMap fun path =>
    [path ++ "/..", path]
  (o.config.toList ++ overrides ++ targets).foldlM (fun disk path => look disk path false) disk

/-- The time of day. -/
def now : IO String := do
  let t := Std.Time.PlainDateTime.ofWallTime ((← Std.Time.Timestamp.now).toWallTime .zero)
  let day : Day := ⟨t.date.year.toInt.toNat, t.date.month.toNat, t.date.day.toNat⟩
  let clock : Clock := ⟨t.time.hour.toNat, t.time.minute.toNat, t.time.second.toNat,
    t.time.nanosecond.toNat / 1000⟩
  return Format.dayText day ++ "T" ++ Format.clockText clock ++ Format.offsetText 0

end CodeSurvey.Main

open CodeSurvey

/-- Runs the program; the status tells whether it went well. -/
def main (arguments : List String) : IO UInt32 := do
  let disk ← match CommandLine.Options.ofArguments arguments with
    | .ok o => Main.gathered o
    | .error _ => pure ⟨.directory [], []⟩
  match CommandLine.run arguments disk (← Main.now) with
  | .ok outcome =>
    IO.print outcome.output
    IO.eprint outcome.errors
    for (names, text) in outcome.written do
      IO.FS.writeFile (Files.pathText names) text
    return outcome.status.toUInt32
  | .error e =>
    IO.eprintln e.message
    return 1
