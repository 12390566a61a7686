import JavaSketch.Proofs.Turns

/-!
# Runs as turns

A run over some source files is their turns, one after the other, each on the
files that the turns before have left.  Its report is made of what the turns gave,
and a source file that fails does not keep the others from having their turns.

**Results.**
* `actsAs_outcomes`: the outcomes of a batch are what its turns give.
* `actsAs_ofSources`: so for the report of a run that writes documents.
* `actsAs_ofSources_table`: and for the run that writes the table of variables.
-/

namespace JavaSketch

open Syntax (Parser SourceUnit)
open JavaSketch.Action (ActsAs)

namespace Batch

variable {α : Type}

/-- Each path with the files as they are when its turn comes. -/
def turns (effect : String → Effect α) : Store → List String → List (String × Store)
  | _, [] => []
  | files, path :: rest => (path, files) :: turns effect (effect path files).2 rest

/-- The files after the turns of some paths. -/
def filesAfter (effect : String → Effect α) (files : Store) (paths : List String) : Store :=
  paths.foldl (fun files path => (effect path files).2) files

/-- What the turn of a path gives. -/
def outcomeOf (effect : String → Effect α) (turn : String × Store) : Outcome α :=
  ⟨turn.1, (effect turn.1 turn.2).1⟩

theorem map_fst_turns (effect : String → Effect α) (files : Store) (paths : List String) :
    (turns effect files paths).map (·.1) = paths := by
  induction paths generalizing files with
  | nil => rfl
  | cons path rest ih => rw [turns, List.map_cons, ih]

theorem filesAfter_reading (value : String → Store → Except Failure α) (files : Store)
    (paths : List String) :
    filesAfter (fun path => .reading (value path)) files paths = files := by
  induction paths with
  | nil => rfl
  | cons path rest ih => exact ih

theorem turns_reading (value : String → Store → Except Failure α) (files : Store)
    (paths : List String) :
    turns (fun path => .reading (value path)) files paths = paths.map (·, files) := by
  induction paths with
  | nil => rfl
  | cons path rest ih => exact congrArg ((path, files) :: ·) ih

/-- Handling one path never fails; its outcome says what was given. -/
theorem actsAs_handleOne {handle : String → Action α} {path : String} {effect : Effect α}
    (h : ActsAs (handle path) effect) :
    ActsAs (handleOne handle path) fun files =>
      (.ok ⟨path, (effect files).1⟩, (effect files).2) := by
  intro session
  have hsession := h session
  unfold handleOne
  simp only [Action.run, Action.ofRun, ExceptT.run] at hsession ⊢
  rw [← hsession]
  cases handle path session with
  | mk result after => cases result <;> rfl

/-- The outcomes of a batch are what its turns give. -/
theorem actsAs_outcomes {handle : String → Action α} {effect : String → Effect α}
    (h : ∀ path, ActsAs (handle path) (effect path)) (paths : List String) :
    ActsAs (outcomes handle paths) fun files =>
      (.ok ((turns effect files paths).map (outcomeOf effect)),
        filesAfter effect files paths) := by
  refine (ActsAs.mapM fun path _ => actsAs_handleOne (h path)).of_eq (funext fun files => ?_)
  induction paths generalizing files with
  | nil => rfl
  | cons path rest ih =>
      simp only [Effect.forEach, Effect.andThen, ih]
      rfl

/-- The report of a batch is made of what its turns give. -/
theorem actsAs_run {handle : String → Action (List String)}
    {effect : String → Effect (List String)} (h : ∀ path, ActsAs (handle path) (effect path))
    (paths : List String) :
    ActsAs (run handle paths) fun files =>
      (.ok (report ((turns effect files paths).map (outcomeOf effect))
        (values ((turns effect files paths).map (outcomeOf effect))).flatten),
        filesAfter effect files paths) :=
  ((actsAs_outcomes h paths).bind fun _ => ActsAs.pure _).of_eq rfl

end Batch

namespace Run

variable (parse : Parser) (mode : Mode) (outDir root : String)

/-- What the turn of a source file gives and what it makes of the files. -/
def turnEffect (source : String) : Effect (List String) :=
  fun files => (turn parse mode outDir root files source).outcome

theorem turnEffect_of_turn_eq {source : String} {files : Store} {progress : Progress}
    (h : turn parse mode outDir root files source = progress) :
    turnEffect parse mode outDir root source files = progress.outcome := by
  rw [turnEffect, h]

/-- Each source file with the files as they are when its turn comes. -/
def turns (files : Store) (sources : List String) : List (String × Store) :=
  Batch.turns (turnEffect parse mode outDir root) files sources

/-- The files after the turns of some source files. -/
def filesAfter (files : Store) (sources : List String) : Store :=
  Batch.filesAfter (turnEffect parse mode outDir root) files sources

/-- What the turns of some source files give. -/
def outcomes (files : Store) (sources : List String) : List (Outcome (List String)) :=
  (turns parse mode outDir root files sources).map
    (Batch.outcomeOf (turnEffect parse mode outDir root))

/-- A run that writes documents reports what its turns give. -/
theorem actsAs_ofSources (tablePath : String) (sources : List String) (hmode : mode ≠ .table) :
    ActsAs (ofSources parse mode outDir root tablePath sources) fun files =>
      (.ok (Batch.report (outcomes parse mode outDir root files sources)
        (Batch.values (outcomes parse mode outDir root files sources)).flatten),
        filesAfter parse mode outDir root files sources) := by
  cases mode with
  | pseudocode => exact Batch.actsAs_run (actsAs_convertFile parse outDir root) sources
  | classes => exact Batch.actsAs_run (actsAs_snapshotFile parse outDir root) sources
  | table => exact absurd rfl hmode

/-- The table is written in its directory, which is made if it is missing. -/
def writeTable (tablePath : String) (summaries : List ClassSummary) (files : Store) : Progress :=
  (files.prepare (Path.directory (Path.absolute files.workingDir tablePath))).andThen
    fun widened => widened.write tablePath (.text (VariableTable.write summaries))

/-- What is given for the source files of a table. -/
def summaryOutcomes (files : Store) (sources : List String) :
    List (Outcome (List ClassSummary)) :=
  (Batch.turns (summaryEffect parse) files sources).map
    (Batch.outcomeOf (summaryEffect parse))

/-- The run that writes the table gives the report if the table can be written. -/
theorem actsAs_ofSources_table (tablePath : String) (sources : List String) :
    ActsAs (ofSources parse .table outDir root tablePath sources) fun files =>
      (writeTable tablePath
        (Batch.values (summaryOutcomes parse files sources)).flatten files).give
          (Batch.report (summaryOutcomes parse files sources) [tablePath]) := by
  refine ((Batch.actsAs_outcomes (actsAs_summarizeFile parse) sources).bind fun outcomes =>
    ActsAs.store.bind fun later => (Action.actsAs_makeDirectories _).bind fun _ =>
      (Action.actsAs_writeFile tablePath _).bind fun _ => (ActsAs.tell _).bind fun _ =>
        ActsAs.pure _).of_eq (funext fun files => ?_)
  have hfiles : Batch.filesAfter (summaryEffect parse) files sources = files :=
    Batch.filesAfter_reading _ files sources
  simp only [Effect.reading_ok_andThen, Effect.ofProgress_andThen_reading,
    Effect.ofProgress_andThen]
  simp only [Effect.andThen, Effect.reading, hfiles]
  rfl

end Run

end JavaSketch
