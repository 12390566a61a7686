import JavaSketch.Command.Options
import JavaSketch.Run

/-!
# The command

The command does one run as its arguments ask and reports how it went.  It ends
with the status one if files failed and none could be handled, and with the
status two if the arguments cannot be followed.
-/

namespace JavaSketch
namespace Command

/-- The directory for documents and tables, unless another is given. -/
def defaultOutDir : String :=
  "snapshots"

/-- How a command ends. -/
inductive Ending
  /-- The run was done. -/
  | done (report : Report)
  /-- The run was stopped. -/
  | stopped (failure : Failure)
  /-- There was no run. -/
  | refused (refusal : Refusal)

/-- The status with which a run that was done ends. -/
def exitStatus (report : Report) : Nat :=
  if report.processed.isEmpty && !report.failed.isEmpty then 1 else 0

/-- The status with which a refused command ends. -/
def Refusal.exitStatus : Refusal → Nat
  | helpWanted => 0
  | misuse => 2

/-- The run that some options ask for. -/
def runOptions (parse : Syntax.Parser) (options : Options) : Action Report := do
  let workingDir := (← Action.store).workingDir
  let outDir := Path.absolute workingDir (options.outDir.getD defaultOutDir)
  let path := options.path.getD ""
  let report ← Run.run parse path options.mode outDir options.table
  Action.tell (.timing "[TIME] Total execution time: ")
  Action.tell (.message ("Done. " ++ toString report.processed.length
    ++ " file(s) processed, " ++ toString report.failed.length ++ " failed."))
  return report

/-- Does what the arguments ask for. -/
def execute (parse : Syntax.Parser) (arguments : List String) (session : Session) :
    Ending × Session :=
  match read arguments with
  | .error refusal => (.refused refusal, session)
  | .ok options =>
      let quieted := { session with verbose := !options.quiet }
      match (runOptions parse options).run quieted with
      | (.ok report, after) => (.done report, after)
      | (.error failure, after) => (.stopped failure, after)

end Command
end JavaSketch
