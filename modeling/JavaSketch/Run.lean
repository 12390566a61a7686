import JavaSketch.Artifact
import JavaSketch.Batch
import JavaSketch.Conversion
import JavaSketch.Discovery
import JavaSketch.Syntax.Reading
import JavaSketch.Variable.Table

/-!
# Runs

A run finds the source files below a path and makes one of three things of them:
a document of pseudocode for each method with an index for each file, one table
of variables for all files, or a document for each file as it is.

**Results.**
* `ofName_name`: a mode is known by its name.
-/

namespace JavaSketch

open Syntax (Parser SourceUnit)

/-- What a run produces. -/
inductive Mode
  | pseudocode
  | table
  | classes
  deriving DecidableEq, Repr

namespace Mode

/-- The name of a mode. -/
def name : Mode → String
  | pseudocode => "pseudocode"
  | table => "variables"
  | classes => "classes"

/-- All modes. -/
def all : List Mode :=
  [pseudocode, table, classes]

/-- The mode of some name. -/
def ofName? (name : String) : Option Mode :=
  all.find? (·.name == name)

/-- The mode of some name, or the failure to know it. -/
def ofName (name : String) : Except Failure Mode :=
  match ofName? name with
  | some mode => .ok mode
  | none => .error (.unknownMode name (all.map (·.name)))

theorem ofName_name (mode : Mode) : ofName mode.name = .ok mode := by
  cases mode <;> rfl

end Mode

namespace Run

/-- The folder of the documents of methods. -/
def pseudocodeFolder : String :=
  "pseudocode"

/-- The folder of the documents of whole files. -/
def classFolder : String :=
  "class_screenshots"

/-- The file name of the table of variables, unless another path is given. -/
def tableName : String :=
  "variables.csv"

/-- Reads a source file. -/
def readUnit (parse : Parser) (path : String) : Action SourceUnit := do
  let text ← Action.ofExcept ((← Action.store).readText path)
  Action.ofExcept (SourceUnit.read parse path text)

/-- The artifact of a method, unless it has nothing to show. -/
def methodArtifact (conversion : Conversion) (method : Span) : Action (Option Artifact) := do
  let label := (method.signature?.map (·.label)).getD ""
  let lines := conversion.methodLines method
  if lines.isEmpty then
    Action.tell (.message ("[INFO] " ++ label ++ ": nothing to render"))
    return none
  else return some ⟨label, lines⟩

/-- The artifacts of the methods of a source file. -/
def methodArtifacts (parse : Parser) (path : String) : Action (List Artifact) := do
  let unit ← readUnit parse path
  let conversion ← Action.ofExcept (unit.convert none)
  conversion.diagnostics.forM fun diagnostic =>
    Action.warn ("[WARN] " ++ path ++ ": " ++ diagnostic.message)
  let artifacts ← conversion.methods.mapM (methodArtifact conversion)
  return artifacts.filterMap id

/-- Writes the documents of the methods of a source file, and their index. -/
def convertFile (parse : Parser) (outDir root path : String) : Action (List String) := do
  Action.tell (.message ("[INFO] Converting file: " ++ path))
  let artifacts ← methodArtifacts parse path
  if artifacts.isEmpty then return []
  else
    let documents ← Artifact.writeDocuments artifacts outDir pseudocodeFolder
    let name ← Action.ofExcept (moduleName (← Action.store).workingDir path root)
    let index ← Artifact.writeIndex artifacts outDir pseudocodeFolder path name
    Action.tell (.timing ("[TIME] " ++ path ++ ": " ++ toString artifacts.length
      ++ " method(s) in "))
    return documents ++ [index]

/-- Writes the document of a whole source file. -/
def snapshotFile (outDir path : String) : Action (List String) := do
  Action.tell (.message ("[INFO] Snapshot of file: " ++ path))
  let text ← Action.ofExcept ((← Action.store).readText path)
  let lines := Text.splitLines (Text.normalizeNewlines text)
  Artifact.writeDocuments [Artifact.ofFile path lines] outDir classFolder

/-- The summaries of the declarations of a source file. -/
def summarizeFile (parse : Parser) (path : String) : Action (List ClassSummary) := do
  return (← readUnit parse path).summaries

/-- Writes the table of the variables of some source files. -/
def summarizeFiles (parse : Parser) (paths : List String) (tablePath : String) :
    Action Report := do
  let outcomes ← Batch.outcomes (summarizeFile parse) paths
  let summaries := (Batch.values outcomes).flatten
  let workingDir := (← Action.store).workingDir
  let directory := Path.directory (Path.absolute workingDir tablePath)
  Action.updateStore (·.makeDirectories directory)
  Action.updateStore (·.writeFile tablePath (.text (VariableTable.write summaries)))
  Action.tell (.message ("[INFO] Wrote " ++ toString (VariableTable.count summaries)
    ++ " variable(s) from " ++ toString summaries.length ++ " class(es) to " ++ tablePath))
  return Batch.report outcomes [tablePath]

/-- The directory that module names are relative to. -/
def rootOf (store : Store) (path : String) : String :=
  if store.isDirectory path then path else Path.directory path

/-- A run in some mode over given source files. -/
def ofSources (parse : Parser) (mode : Mode) (outDir root tablePath : String)
    (paths : List String) : Action Report :=
  match mode with
  | .pseudocode => Batch.run (convertFile parse outDir root) paths
  | .classes => Batch.run (snapshotFile outDir) paths
  | .table => summarizeFiles parse paths tablePath

/-- A run in some mode over the source files of a path. -/
def inMode (parse : Parser) (path : String) (mode : Mode) (outDir : String)
    (tablePath : Option String) : Action Report := do
  let store ← Action.store
  let paths := store.discover path
  Action.tell (.message ("[INFO] Found " ++ toString paths.length
    ++ " Java file(s) under " ++ path))
  let given := tablePath.filter (· ≠ "")
  ofSources parse mode outDir (rootOf store path)
    (given.getD (Path.join outDir tableName)) paths

/-- A run in the mode of some name. -/
def run (parse : Parser) (path mode outDir : String) (tablePath : Option String) :
    Action Report := do
  let mode ← Action.ofExcept (Mode.ofName mode)
  inMode parse path mode outDir tablePath

end Run

end JavaSketch
