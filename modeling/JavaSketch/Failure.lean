import JavaSketch.Text.Quoted
import JavaSketch.Text.Split

/-!
# What can go wrong

A failure is the cause that stops an operation.  Its message is what the user is
told; a failure of the file system names the path in quotes.
-/

namespace JavaSketch

/-- Why the file system refuses an operation. -/
inductive FileFault
  | notFound
  | alreadyExists
  | notDirectory
  | isDirectory
  | nameTooLong
  deriving DecidableEq, Repr

namespace FileFault

/-- The number by which the operating system knows the fault. -/
def number : FileFault → Nat
  | notFound => 2
  | alreadyExists => 17
  | notDirectory => 20
  | isDirectory => 21
  | nameTooLong => 36

/-- The fault in words. -/
def description : FileFault → String
  | notFound => "No such file or directory"
  | alreadyExists => "File exists"
  | notDirectory => "Not a directory"
  | isDirectory => "Is a directory"
  | nameTooLong => "File name too long"

end FileFault

/-- The cause that stops an operation. -/
inductive Failure
  /-- A source text that is not a Java program. -/
  | unparsable (path reason : String)
  /-- A span of lines that would end before it starts. -/
  | reversedSpan (kind : String) (first last : Int)
  /-- A word that names no kind of construct. -/
  | unknownKind (name : String)
  /-- A line number that a buffer of some size does not have. -/
  | lineOutside (line : Int) (size : Nat)
  /-- A text that a document cannot hold. -/
  | unprintableText
  /-- A word that names no mode of operation. -/
  | unknownMode (name : String) (expected : List String)
  /-- An empty path where a file is to be named relative to a directory. -/
  | emptyPath
  /-- An operation on a path that the file system refuses. -/
  | fileSystem (fault : FileFault) (path : String)
  /-- A reason given by whoever handles a source file. -/
  | refused (reason : String)
  deriving DecidableEq, Repr

namespace Failure

/-- A failure in words. -/
def message : Failure → String
  | unparsable path reason => path ++ ": " ++ reason
  | reversedSpan kind first last =>
      kind ++ " span starts after it ends: " ++ toString first ++ " > " ++ toString last
  | unknownKind name => Text.quoted name ++ " is not a valid ConstructKind"
  | lineOutside line size =>
      "line " ++ toString line ++ " outside 1.." ++ toString size
  | unprintableText =>
      "All strings must be XML compatible: Unicode or ASCII, "
        ++ "no NULL bytes or control characters"
  | unknownMode name expected =>
      "unknown mode " ++ Text.quoted name ++ ", expected one of "
        ++ Text.join ", " expected
  | emptyPath => "no path specified"
  | fileSystem fault path =>
      "[Errno " ++ toString fault.number ++ "] " ++ fault.description ++ ": "
        ++ Text.quoted path
  | refused reason => reason

/-- What was being attempted when a source file failed. -/
def attempted : Failure → String
  | unparsable _ _ => "parse"
  | _ => "process"

end Failure

end JavaSketch
