import JavaSketch.Failure

/-!
# File paths

A path is a sequence of names separated by slashes; one that starts with a slash
is absolute.  Paths are cut and joined as texts, without looking at any file.

**Rules.**
* The stem of a path is the path without its extension, which starts at the last
  dot of the last name; dots a name begins with start no extension.
* A path is normalised by leaving out empty names and single dots and by letting
  each double dot take back the name before it.  Two leading slashes stay two;
  any other number of leading slashes becomes one.

**Results.**
* `joinChars_of_absolute`: joining an absolute path forgets what it is joined to.
-/

namespace JavaSketch
namespace Path

/-- The name of the directory a path starts from. -/
def here : List Char :=
  ['.']

/-- The name of the directory above. -/
def above : List Char :=
  ['.', '.']

/-- Whether a path starts at the root. -/
def isAbsolute (path : List Char) : Bool :=
  path.head? == some '/'

/-- The names of a path between its slashes; some may be empty. -/
def names (path : List Char) : List (List Char) :=
  Text.pieces '/' path

/-- The last name of a path; empty if the path ends in a slash. -/
def baseChars (path : List Char) : List Char :=
  (names path).getLast?.getD []

/-- What comes before the last name of a path, its slash included. -/
def headChars (path : List Char) : List Char :=
  path.take (path.length - (baseChars path).length)

/-- The last name of a path; empty if the path ends in a slash. -/
def baseName (path : String) : String :=
  String.ofList (baseChars path.toList)

/-- The directory of a path, without slashes at its end unless it has nothing
else. -/
def directoryChars (path : List Char) : List Char :=
  let head := headChars path
  let stripped := (head.reverse.dropWhile (· == '/')).reverse
  if stripped = [] then head else stripped

/-- The directory of a path. -/
def directory (path : String) : String :=
  String.ofList (directoryChars path.toList)

/-- A name without its extension. -/
def stemOfName (name : List Char) : List Char :=
  match name.reverse.dropWhile (· != '.') with
  | _ :: before => if before.any (· != '.') then before.reverse else name
  | [] => name

/-- A path without its extension. -/
def stemChars (path : List Char) : List Char :=
  headChars path ++ stemOfName (baseChars path)

/-- A path below a directory; an absolute path is itself. -/
def joinChars (base path : List Char) : List Char :=
  if isAbsolute path then path
  else if base = [] ∨ base.getLast? = some '/' then base ++ path
  else base ++ '/' :: path

/-- A path below a directory; an absolute path is itself. -/
def join (base path : String) : String :=
  String.ofList (joinChars base.toList path.toList)

/-- Adds a name to the names of a normal path, the latest first. -/
def pushName (absolute : Bool) (done : List (List Char)) (name : List Char) :
    List (List Char) :=
  if name = [] ∨ name = here then done
  else if name = above then
    match done with
    | [] => if absolute then [] else [above]
    | last :: rest => if last = above then above :: done else rest
  else name :: done

/-- The names of the normal form of a path. -/
def normalNames (path : List Char) : List (List Char) :=
  ((names path).foldl (pushName (isAbsolute path)) []).reverse

/-- The slashes a normal path begins with. -/
def leadingSlashes (path : List Char) : List Char :=
  match path with
  | '/' :: '/' :: '/' :: _ => ['/']
  | '/' :: '/' :: _ => ['/', '/']
  | '/' :: _ => ['/']
  | _ => []

/-- The normal form of a path. -/
def normalChars (path : List Char) : List Char :=
  let normal := leadingSlashes path ++ Text.joinWith '/' (normalNames path)
  if normal = [] then here else normal

/-- The normal form of a path as seen from a working directory. -/
def absoluteChars (workingDir path : List Char) : List Char :=
  normalChars (joinChars workingDir path)

/-- The normal form of a path as seen from a working directory. -/
def absolute (workingDir path : String) : String :=
  String.ofList (absoluteChars workingDir.toList path.toList)

/-- The names of a path from the root on. -/
def absoluteNames (workingDir path : List Char) : List (List Char) :=
  (names (absoluteChars workingDir path)).filter (· ≠ [])

/-- What two sequences of names have after their common beginning. -/
def dropCommon : List (List Char) → List (List Char) → List (List Char) × List (List Char)
  | left :: lefts, right :: rights =>
      if left = right then dropCommon lefts rights else (left :: lefts, right :: rights)
  | lefts, rights => (lefts, rights)

/-- The names that lead from one directory to a path. -/
def relativeNames (workingDir path start : List Char) : List (List Char) :=
  let (up, down) := dropCommon (absoluteNames workingDir start)
    (absoluteNames workingDir path)
  up.map (fun _ => above) ++ down

/-- The path that leads from one directory to another path. -/
def relativeChars (workingDir path start : List Char) : List Char :=
  let steps := relativeNames workingDir path start
  if steps = [] then here else Text.joinWith '/' steps

theorem joinChars_of_absolute {base path : List Char} (h : isAbsolute path) :
    joinChars base path = path := by
  simp [joinChars, h]

end Path
end JavaSketch
