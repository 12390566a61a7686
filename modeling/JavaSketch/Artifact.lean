import JavaSketch.Json
import JavaSketch.Session
import JavaSketch.Text.Blank

/-!
# Artifacts

An artifact is a label with lines to show.  The artifacts of one source file are
written as one document each and, where the file is converted, listed in a JSON
index.

**Rules.**
* A document is named after its label, with an underscore for each character
  that file names should not have; a label that leaves nothing is `unnamed`.
* Labels may repeat; a name that is taken within one call gets the first free
  number behind it.

**Results.**
* `length_documentNames`: each label gets one name.
-/

namespace JavaSketch

/-- A label with the lines to be shown under it. -/
structure Artifact where
  /-- What the lines are called. -/
  label : String
  /-- The lines. -/
  lines : List String
  deriving DecidableEq, Repr

namespace Artifact

/-- A whole file: its name, as label and as first line, and its lines. -/
def ofFile (path : String) (lines : List String) : Artifact :=
  let name := Path.baseName path
  ⟨name, name :: lines⟩

/-- Whether a file name should not have a character. -/
def isUnsafeInName (c : Char) : Bool :=
  c.toNat ≤ 0x1F || "<>:\"/\\|?*".toList.contains c

/-- The file name that a label stands for, without extension. -/
def fileName (label : String) : String :=
  let safe := label.toList.map fun c => if isUnsafeInName c then '_' else c
  let trimmed := Text.trimChars safe
  if trimmed = [] then "unnamed" else String.ofList trimmed

/-- The first of a name and its numbered variants that is not taken. -/
def freshName (taken : List String) (name : String) : String :=
  if taken.contains name then
    let variants := (List.range (taken.length + 1)).map fun n =>
      name ++ "_" ++ toString (n + 1)
    (variants.find? (!taken.contains ·)).getD name
  else name

/-- Distinct names for some labels, apart from names that are taken. -/
def documentNamesFrom (taken : List String) : List String → List String
  | [] => []
  | label :: rest =>
      let name := freshName taken (fileName label)
      name :: documentNamesFrom (name :: taken) rest

/-- Distinct names for the labels of one call. -/
def documentNames (labels : List String) : List String :=
  documentNamesFrom [] labels

/-- The document that shows an artifact. -/
def document (artifact : Artifact) : Except Failure Document :=
  Document.ofLines artifact.label artifact.lines

/-- An artifact as an entry of an index. -/
def toJson (artifact : Artifact) : Json :=
  .object [("label", .string artifact.label),
    ("lines", .array (artifact.lines.map .string))]

/-- Writes the document of an artifact and gives its path. -/
def writeDocument (artifact : Artifact) (path : String) : Action String := do
  let document ← Action.ofExcept artifact.document
  let directory := Path.directory path
  Action.updateStore (·.makeDirectories (if directory = "" then "." else directory))
  Action.updateStore (·.writeFile path (.document document))
  return path

/-- Writes the documents of the artifacts of one call, in order. -/
def writeDocuments (artifacts : List Artifact) (outDir folder : String) :
    Action (List String) := do
  let target := Path.join outDir folder
  Action.updateStore (·.makeDirectories target)
  let names := documentNames (artifacts.map (·.label))
  (artifacts.zip names).mapM fun (artifact, name) =>
    artifact.writeDocument (Path.join target (name ++ ".docx"))

/-- The index of the artifacts of a source file. -/
def index (artifacts : List Artifact) (sourcePath : String) : Json :=
  .object [("source", .string sourcePath), ("artifacts", .array (artifacts.map (·.toJson)))]

/-- The name of the index of a source file, unless it is given one. -/
def indexName (sourcePath given : String) : String :=
  if given = "" then String.ofList (Path.stemChars (Path.baseChars sourcePath.toList))
  else given

/-- Writes the index of a source file and gives its path. -/
def writeIndex (artifacts : List Artifact) (outDir folder sourcePath given : String) :
    Action String := do
  let name := indexName sourcePath given ++ ".json"
  let path := Path.join (Path.join outDir folder) name
  Action.updateStore (·.makeDirectories (Path.directory path))
  Action.updateStore (·.writeFile path (.text (index artifacts sourcePath).write))
  return path

theorem length_documentNamesFrom (taken labels : List String) :
    (documentNamesFrom taken labels).length = labels.length := by
  induction labels generalizing taken with
  | nil => rfl
  | cons label rest ih => simp [documentNamesFrom, ih]

theorem length_documentNames (labels : List String) :
    (documentNames labels).length = labels.length :=
  length_documentNamesFrom [] labels

end Artifact

end JavaSketch
