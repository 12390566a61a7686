import JavaSketch.Store

/-!
# Finding source files

A path names one source file, or a directory with source files anywhere below
it.  Each source file has a dotted module name, which says where it is relative
to the directory a run started from.

**Results.**
* `discover_of_directory`: a path to a directory finds the sources below it.
-/

namespace JavaSketch

/-- Whether a path ends like that of a Java source file. -/
def isSourcePath (path : String) : Bool :=
  ".java".toList.isSuffixOf path.toList

/-- The module name of a source file relative to a directory; without a
directory, the name of the file alone. -/
def moduleName (workingDir path root : String) : Except Failure String :=
  if root = "" then .ok (String.ofList (Path.stemChars (Path.baseChars path.toList)))
  else if path = "" then .error .emptyPath
  else
    let relative := Path.relativeChars workingDir.toList path.toList root.toList
    let dotted := (Path.stemChars relative).map fun c => if c = '/' then '.' else c
    .ok (String.ofList dotted)

namespace Store

/-- The paths of the source files below a directory, in no set order. -/
def sourcesBelow (store : Store) (path : String) (place : Place) : List String :=
  ((store.filesBelow place).filter fun names => names.getLast?.any isSourcePath).map
    fun names => Path.join path (Text.join "/" names)

/-- The source files a path stands for, ordered by their paths. -/
def discover (store : Store) (path : String) : List String :=
  match store.resolve path with
  | .error _ => []
  | .ok place =>
      match store.entry place with
      | none => []
      | some (.file _) => if isSourcePath path then [path] else []
      | some .directory => (store.sourcesBelow path place).mergeSort fun a b => !(b < a)

/-- Sources that are in order already are found in that order. -/
theorem discover_of_directory {store : Store} {path : String} {place : Place}
    {sources : List String} (hresolve : store.resolve path = .ok place)
    (hentry : store.entry place = some .directory)
    (hsources : store.sourcesBelow path place = sources)
    (hsorted : sources.Pairwise fun a b => !(b < a)) : store.discover path = sources := by
  simp only [discover, hresolve, hentry, hsources]
  exact List.mergeSort_of_pairwise hsorted

end Store

end JavaSketch
