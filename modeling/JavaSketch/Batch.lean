import JavaSketch.Session

/-!
# Batches of source files

The files of a batch are handled one after the other.  A file that fails is
reported and passed over; what it changed before it failed stays, and the rest
of the batch goes on.
-/

namespace JavaSketch

/-- What became of one file of a batch. -/
structure Outcome (α : Type) where
  /-- The path of the file. -/
  path : String
  /-- What handling it gave, or why it failed. -/
  result : Except Failure α

/-- What a run reports about its files. -/
structure Report where
  /-- The files that were handled, in order. -/
  processed : List String
  /-- The files that failed, each with the message of its latest failure. -/
  failed : List (String × String)
  /-- The files that were written, in order. -/
  written : List String
  deriving DecidableEq, Repr

namespace Outcome

/-- The value that handling a file gave, if it did not fail. -/
def value? {α : Type} (outcome : Outcome α) : Option α :=
  outcome.result.toOption

/-- The message of the failure, if handling a file failed. -/
def failureMessage? {α : Type} (outcome : Outcome α) : Option String :=
  match outcome.result with
  | .ok _ => none
  | .error failure => some failure.message

end Outcome

namespace Batch

/-- What the user is told about a file that failed. -/
def warning (path : String) (failure : Failure) : String :=
  "[WARN] Failed to " ++ failure.attempted ++ " " ++ path ++ ": " ++ failure.message

/-- Handles one file and tells the user if it fails. -/
def handleOne {α : Type} (handle : String → Action α) (path : String) :
    Action (Outcome α) :=
  Action.ofRun fun session =>
    match (handle path).run session with
    | (.ok value, after) => (.ok ⟨path, .ok value⟩, after)
    | (.error failure, after) =>
        (.ok ⟨path, .error failure⟩, ((Action.warn (warning path failure)).run after).2)

/-- Handles the files of a batch in order. -/
def outcomes {α : Type} (handle : String → Action α) (paths : List String) :
    Action (List (Outcome α)) :=
  paths.mapM (handleOne handle)

/-- Records the message of a failure, instead of an earlier one of the file. -/
def recordFailure (failed : List (String × String)) (path message : String) :
    List (String × String) :=
  if failed.any (·.1 == path) then
    failed.map fun old => if old.1 == path then (path, message) else old
  else failed ++ [(path, message)]

/-- The failures of a batch by file. -/
def failures {α : Type} (outcomes : List (Outcome α)) : List (String × String) :=
  outcomes.foldl (fun failed outcome =>
    match outcome.failureMessage? with
    | some message => recordFailure failed outcome.path message
    | none => failed) []

/-- The report on a batch whose handler tells which files it wrote. -/
def report {α : Type} (outcomes : List (Outcome α)) (written : List String) : Report :=
  { processed := (outcomes.filter (·.value?.isSome)).map (·.path)
    failed := failures outcomes
    written := written }

/-- The values that handling the files of a batch gave, in order. -/
def values {α : Type} (outcomes : List (Outcome α)) : List α :=
  outcomes.filterMap (·.value?)

/-- Handles a batch whose handler tells which files it wrote. -/
def run (handle : String → Action (List String)) (paths : List String) :
    Action Report := do
  let outcomes ← outcomes handle paths
  return report outcomes (values outcomes).flatten

end Batch

end JavaSketch
