import JavaSketch.Command
import JavaSketch.Java.Reader

/-!
# The program

The outer layer of the command: it takes the files that the command may look at
from the disk, runs the command on them, prints what there is to tell and puts
the files that were written on the disk.  A document is written as its text, one
paragraph a line.
-/

namespace JavaSketch
namespace Main

/-- How the command is called. -/
def usage : String :=
  "usage: --path PATH [--mode pseudocode|variables|classes] [--out-dir DIR]"
    ++ " [--csv PATH] [--quiet] [--help]"

/-- The text that is put on the disk for a document. -/
def textOf (document : Document) : String :=
  String.join ((document.heading :: document.paragraphs).map (· ++ "\n"))

/-- A store with a change, if the change can be made. -/
def changed (store : Store) (change : Store → Except Failure Store) : Store :=
  match change store with
  | .ok store => store
  | .error _ => store

/-- Adds what is at a path; of files, only sources are read. -/
def loadEntry (store : Store) (path : String) : IO Store := do
  let target := (← IO.currentDir) / path
  if ← target.isDir then return changed store (·.makeDirectories path)
  else if ← target.pathExists then
    let bytes ← if isSourcePath path then IO.FS.readBinFile path else pure ByteArray.empty
    return changed store (·.writeFile path (.raw bytes))
  else return store

/-- Adds what is at and below a path. -/
partial def loadBelow (store : Store) (path : String) : IO Store := do
  let mut loaded ← loadEntry store path
  let target := (← IO.currentDir) / path
  if ← target.isDir then
    for entry in ← target.readDir do
      loaded ← loadBelow loaded (Path.join path entry.fileName)
  return loaded

/-- Adds the directories above a path, and what is at and below it. -/
def loadPath (store : Store) (path : String) : IO Store := do
  let names := (Text.split '/' (Path.absolute store.workingDir path)).filter (· ≠ "")
  let mut loaded := store
  for count in List.range names.length do
    loaded ← loadEntry loaded ("/" ++ Text.join "/" (names.take count))
  loadBelow loaded path

/-- The files that a command may look at. -/
def load (workingDir : String) (options : Command.Options) : IO Store := do
  let paths := [options.path, some (options.outDir.getD Command.defaultOutDir),
    options.table].filterMap id
  (paths.filter (· ≠ "")).foldlM loadPath (Store.empty workingDir)

/-- Puts the directories and the files that were written on the disk. -/
def save (store : Store) : IO Unit :=
  store.entries.reverse.forM fun (place, entry) => do
    let path := "/" ++ Text.join "/" place
    match entry with
    | .directory => IO.FS.createDirAll path
    | .file (.text written) => IO.FS.writeFile path written
    | .file (.document shown) => IO.FS.writeFile path (textOf shown)
    | .file (.raw _) => return

/-- Runs the command on the files on the disk and gives its exit status. -/
def run (arguments : List String) : IO UInt32 := do
  let workingDir := toString (← IO.currentDir)
  let started ← IO.monoMsNow
  let store ← match Command.read arguments with
    | .ok options => load workingDir options
    | .error _ => pure (Store.empty workingDir)
  let (ending, session) := Command.execute Java.parse arguments ⟨store, [], true⟩
  save session.store
  let elapsed := (← IO.monoMsNow) - started
  session.notices.forM fun notice => IO.println (notice.render elapsed)
  match ending with
  | .done report => return UInt32.ofNat (Command.exitStatus report)
  | .stopped failure =>
      IO.eprintln failure.message
      return 1
  | .refused refusal =>
      IO.println usage
      return UInt32.ofNat refusal.exitStatus

end Main
end JavaSketch

/-- Runs the command. -/
def main (arguments : List String) : IO UInt32 :=
  JavaSketch.Main.run arguments
