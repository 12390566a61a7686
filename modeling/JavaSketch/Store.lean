import JavaSketch.Document
import JavaSketch.Path
import JavaSketch.Text.Utf8

/-!
# Files and directories

A store is a tree of directories and files, seen from a working directory.  A
place is the sequence of names that leads to an entry from the root; a path is
followed name by name, and every name but the last must be a directory.

**Results.**
* `entry_insert_self`: an entry that was put in is found.
-/

namespace JavaSketch

/-- What a file holds. -/
inductive FileContent
  /-- Bytes from elsewhere. -/
  | raw (bytes : ByteArray)
  /-- Text written as UTF-8. -/
  | text (written : String)
  /-- A document with a heading and paragraphs. -/
  | document (shown : Document)

namespace FileContent

instance : DecidableEq FileContent
  | .raw bytes, .raw bytes' =>
      decidable_of_iff (bytes.data = bytes'.data) (by simp [ByteArray.ext_iff])
  | .text written, .text written' => decidable_of_iff (written = written') (by simp)
  | .document shown, .document shown' => decidable_of_iff (shown = shown') (by simp)
  | .raw _, .text _ | .raw _, .document _ | .text _, .raw _ | .text _, .document _
  | .document _, .raw _ | .document _, .text _ => isFalse nofun

/-- The text of a file, without what is not UTF-8; a document has none. -/
def readText : FileContent → String
  | raw bytes => Text.decodeUtf8 bytes
  | text written => written
  | document _ => ""

end FileContent

/-- The names that lead from the root to an entry. -/
abbrev Place := List String

/-- What is at a place. -/
inductive Entry
  | directory
  | file (content : FileContent)
  deriving DecidableEq

/-- Directories and files, seen from a working directory. -/
structure Store where
  /-- The absolute path of the working directory. -/
  workingDir : String
  /-- The entries below the root; a place is listed once. -/
  entries : List (Place × Entry)
  deriving DecidableEq

namespace Store

/-- What is at a place; the root is a directory. -/
def entry (store : Store) (place : Place) : Option Entry :=
  if place = [] then some .directory else store.entries.lookup place

/-- The store with an entry at a place, instead of what was there. -/
def insert (store : Store) (place : Place) (entry : Entry) : Store :=
  { store with entries := (place, entry) :: store.entries.filter (·.1 != place) }

/-- The most bytes that a name may have. -/
def longestName : Nat :=
  255

/-- The place that some names lead to from a place.  Only a directory can be
left by a name, even by an empty one. -/
def follow (store : Store) (place : Place) : List String → Except FileFault Place
  | [] => .ok place
  | name :: rest =>
      match store.entry place with
      | none => .error .notFound
      | some (.file _) => .error .notDirectory
      | some .directory =>
          if name = "" ∨ name = "." then store.follow place rest
          else if name = ".." then store.follow place.dropLast rest
          else if longestName < name.utf8ByteSize then .error .nameTooLong
          else store.follow (place ++ [name]) rest

/-- The names of a path as seen from the working directory. -/
def namesOf (store : Store) (path : String) : List String :=
  Text.split '/' (Path.join store.workingDir path)

/-- The place a path leads to, whether or not something is there. -/
def resolve (store : Store) (path : String) : Except FileFault Place :=
  if path = "" then .error .notFound else store.follow [] (store.namesOf path)

/-- What a path leads to. -/
def find? (store : Store) (path : String) : Option Entry :=
  match store.resolve path with
  | .ok place => store.entry place
  | .error _ => none

/-- Whether a path leads to a directory. -/
def isDirectory (store : Store) (path : String) : Bool :=
  match store.find? path with
  | some .directory => true
  | _ => false

/-- The text of the file that a path leads to. -/
def readText (store : Store) (path : String) : Except Failure String :=
  match store.resolve path with
  | .error fault => .error (.fileSystem fault path)
  | .ok place =>
      match store.entry place with
      | some (.file content) => .ok content.readText
      | some .directory => .error (.fileSystem .isDirectory path)
      | none => .error (.fileSystem .notFound path)

/-- The directory in which a path names something. -/
def parentOf (path : String) : String :=
  let head := Path.headChars path.toList
  if head = [] then "." else String.ofList head

/-- Where a file can be written under a path.  A path that ends in a slash can
only name a directory. -/
def writablePlace (store : Store) (path : String) : Except FileFault Place := do
  if path = "" then throw .notFound
  let _ ← store.resolve (parentOf path)
  if Path.baseName path = "" then throw .isDirectory
  let place ← store.resolve path
  match store.entry place with
  | some .directory => throw .isDirectory
  | _ => return place

/-- Writes a file, instead of what it held before. -/
def writeFile (store : Store) (path : String) (content : FileContent) :
    Except Failure Store :=
  match store.writablePlace path with
  | .ok place => .ok (store.insert place (.file content))
  | .error fault => .error (.fileSystem fault path)

/-- Makes one directory in a directory that is there already. -/
def makeDirectory (store : Store) (path : String) : Except Failure Store :=
  let stripped := (path.toList.reverse.dropWhile (· == '/')).reverse
  match store.resolve (if stripped = [] then path else String.ofList stripped) with
  | .error fault => .error (.fileSystem fault path)
  | .ok place =>
      match store.entry place with
      | some _ => .error (.fileSystem .alreadyExists path)
      | none => .ok (store.insert place .directory)

/-- The directory of a path and its last name, slashes at the end of the path
put aside. -/
def splitLast (path : List Char) : List Char × List Char :=
  let head := Path.directoryChars path
  if Path.baseChars path = [] then (Path.directoryChars head, Path.baseChars head)
  else (head, Path.baseChars path)

/-- Makes a directory and the directories above it, with at most `depth` of
them missing; a directory that is there already will do. -/
def makeDirectoriesTo (store : Store) : Nat → String → Except Failure Store
  | 0, path => .error (.fileSystem .nameTooLong path)
  | depth + 1, path =>
      let (head, tail) := splitLast path.toList
      let above := String.ofList head
      let missing := head ≠ [] ∧ tail ≠ [] ∧ (store.find? above).isNone
      let prepared : Except Failure Store :=
        if missing then
          match store.makeDirectoriesTo depth above with
          | .error (.fileSystem .alreadyExists _) => .ok store
          | other => other
        else .ok store
      match prepared with
      | .error failure => .error failure
      | .ok store =>
          if missing ∧ tail = Path.here then .ok store
          else
            match store.makeDirectory path with
            | .ok made => .ok made
            | .error failure =>
                if store.isDirectory path then .ok store else .error failure

/-- Makes a directory and the directories above it that are missing.  A failure gives
back no files, so that of the directories that were made before one could not be made
nothing is kept, although on a disk they would stay; no file lies in them. -/
def makeDirectories (store : Store) (path : String) : Except Failure Store :=
  store.makeDirectoriesTo (path.length + 1) path

/-- The files below a directory, by the names that lead to them from it. -/
def filesBelow (store : Store) (directory : Place) : List Place :=
  store.entries.filterMap fun (place, entry) =>
    match entry with
    | .file _ =>
        if directory.isPrefixOf place && directory.length < place.length then
          some (place.drop directory.length)
        else none
    | .directory => none

/-- An empty store with a working directory. -/
def empty (workingDir : String) : Store :=
  let names := (Text.split '/' workingDir).filter (· ≠ "")
  ⟨workingDir, (List.range names.length).map fun n => (names.take (n + 1), .directory)⟩

theorem entry_insert_self (store : Store) {place : Place} (h : place ≠ [])
    (entry : Entry) : (store.insert place entry).entry place = some entry := by
  simp [Store.entry, insert, h]

end Store

end JavaSketch
