import JavaSketch.Artifact
import JavaSketch.Proofs.Files

/-!
# Steps and how far they come

A run writes files one after the other and stops at the first that cannot be
written; what was written before stays.  A step is one file to be written, or the
reason why there is none; progress is how far some steps came.

**Results.**
* `put_cases`: all that writing one file can do.
* `related_carryOut`: what holds of each step holds of all that are carried out.
* `keeps_carryOutIn`: steps take nothing away.
* `exists_rest_of_carryOut`: what was written are the first of the steps, and all
  of them if nothing failed.
-/

namespace JavaSketch

/-- One file to be written, as its path and its content, or why it cannot be made. -/
abbrev Step := Except Failure (String × FileContent)

/-- How far some steps were carried out. -/
structure Progress where
  /-- The files that were written, in order. -/
  written : List (String × FileContent)
  /-- What stopped the steps, if they were not all carried out. -/
  failure : Option Failure
  /-- The files as the steps leave them. -/
  files : Store
  deriving DecidableEq

namespace Progress

/-- Nothing written, because there was nothing to write or for a reason. -/
def idle (files : Store) (failure : Option Failure) : Progress :=
  ⟨[], failure, files⟩

/-- Progress that was made after some files had been written. -/
def after (written : List (String × FileContent)) (progress : Progress) : Progress :=
  { progress with written := written ++ progress.written }

/-- More to be done once what comes before did not fail. -/
def andThen (first : Progress) (next : Store → Progress) : Progress :=
  match first.failure with
  | some _ => first
  | none => (next first.files).after first.written

/-- A value for who waits for the end of some progress, unless something failed. -/
def give {α : Type} (progress : Progress) (value : α) : Except Failure α × Store :=
  match progress.failure with
  | none => (.ok value, progress.files)
  | some failure => (.error failure, progress.files)

/-- The paths that were written, unless something failed. -/
def outcome (progress : Progress) : Except Failure (List String) × Store :=
  progress.give (progress.written.map (·.1))

section Simp

variable (files : Store) (failure : Option Failure) (written : List (String × FileContent))
  (progress : Progress)

@[simp] theorem files_idle : (idle files failure).files = files := rfl

@[simp] theorem failure_idle : (idle files failure).failure = failure := rfl

@[simp] theorem written_idle : (idle files failure).written = [] := rfl

@[simp] theorem files_after : (progress.after written).files = progress.files := rfl

@[simp] theorem failure_after : (progress.after written).failure = progress.failure := rfl

@[simp] theorem written_after :
    (progress.after written).written = written ++ progress.written := rfl

@[simp] theorem idle_andThen (next : Store → Progress) :
    (idle files none).andThen next = next files := rfl

end Simp

variable {α : Type} {progress first : Progress} {failure : Failure}

theorem give_of_done (h : progress.failure = none) (value : α) :
    progress.give value = (.ok value, progress.files) := by
  simp [give, h]

theorem give_of_failure (h : progress.failure = some failure) (value : α) :
    progress.give value = (.error failure, progress.files) := by
  simp [give, h]

theorem eq_of_give_eq_ok {value given : α} (h : (progress.give value).1 = .ok given) :
    given = value := by
  unfold give at h
  cases hfailure : progress.failure with
  | none => simpa [hfailure, eq_comm] using h
  | some failure => simp [hfailure] at h

theorem map_give {β : Type} (progress : Progress) (value : α) (f : α → β) :
    ((progress.give value).1.map f, (progress.give value).2) = progress.give (f value) := by
  unfold give
  cases progress.failure <;> rfl

theorem outcome_eq_give {paths : List String}
    (h : progress.failure = none → progress.written.map (·.1) = paths) :
    progress.outcome = progress.give paths := by
  unfold outcome
  cases hfailure : progress.failure with
  | some failure => rw [give_of_failure hfailure, give_of_failure hfailure]
  | none => rw [h hfailure]

theorem of_outcome_eq_ok {paths : List String} {files : Store}
    (h : progress.outcome = (.ok paths, files)) :
    progress.failure = none ∧ progress.written.map (·.1) = paths ∧ progress.files = files := by
  unfold outcome give at h
  cases hfailure : progress.failure with
  | some failure => simp [hfailure] at h
  | none => exact ⟨rfl, by simpa [hfailure] using h⟩

theorem andThen_of_failure (h : first.failure = some failure) (next : Store → Progress) :
    first.andThen next = first := by
  simp [andThen, h]

theorem andThen_of_done (h : first.failure = none) (next : Store → Progress) :
    first.andThen next = (next first.files).after first.written := by
  simp [andThen, h]

theorem andThen_idle (progress : Progress) :
    (progress.andThen fun files => .idle files none) = progress := by
  cases h : progress.failure with
  | some failure => exact andThen_of_failure h _
  | none =>
      rw [andThen_of_done h]
      simp [after, idle, ← h]

theorem andThen_assoc (first : Progress) (second third : Store → Progress) :
    (first.andThen second).andThen third =
      first.andThen fun files => (second files).andThen third := by
  cases hfirst : first.failure with
  | some failure =>
      rw [andThen_of_failure hfirst, andThen_of_failure hfirst, andThen_of_failure hfirst]
  | none =>
      rw [andThen_of_done hfirst, andThen_of_done hfirst]
      cases hsecond : (second first.files).failure with
      | some failure =>
          rw [andThen_of_failure hsecond, andThen_of_failure (by simpa using hsecond)]
      | none =>
          rw [andThen_of_done hsecond, andThen_of_done (by simpa)]
          simp [after]

end Progress

namespace Store

/-- Makes a directory and the directories above it. -/
def prepare (files : Store) (directory : String) : Progress :=
  match files.makeDirectories directory with
  | .ok widened => .idle widened none
  | .error failure => .idle files (some failure)

/-- Writes one file. -/
def write (files : Store) (path : String) (content : FileContent) : Progress :=
  match files.writeFile path content with
  | .ok later => ⟨[(path, content)], none, later⟩
  | .error failure => .idle files (some failure)

/-- Writes a file in its directory, which is made if it is missing. -/
def put (files : Store) (path : String) (content : FileContent) : Progress :=
  (files.prepare (Path.directory path)).andThen fun widened => widened.write path content

/-- Carries out steps in order until one fails. -/
def carryOut (files : Store) : List Step → Progress
  | [] => .idle files none
  | .error failure :: _ => .idle files (some failure)
  | .ok (path, content) :: rest =>
      (files.put path content).andThen fun later => later.carryOut rest

/-- Carries out steps once a directory is there. -/
def carryOutIn (files : Store) (directory : String) (steps : List Step) : Progress :=
  (files.prepare directory).andThen fun widened => widened.carryOut steps

theorem prepare_cases (files : Store) (directory : String) :
    ∃ widened, Widens files widened ∧
      ∃ failure, files.prepare directory = .idle widened failure := by
  unfold prepare
  cases hwidened : files.makeDirectories directory with
  | error failure => exact ⟨files, Widens.refl files, some failure, rfl⟩
  | ok widened => exact ⟨widened, widens_of_makeDirectories_eq_ok hwidened, none, rfl⟩

/-- A file is written at the place its path leads to once its directory is there,
or nothing happens but that directories are made. -/
theorem put_cases (files : Store) (path : String) (content : FileContent) :
    ∃ widened, Widens files widened ∧
      ((∃ failure, files.put path content = .idle widened (some failure)) ∨
        ∃ place, files.put path content =
            ⟨[(path, content)], none, widened.insert place (.file content)⟩ ∧
          widened.resolve path = .ok place ∧ widened.entry place ≠ some .directory) := by
  obtain ⟨widened, hwidens, failure, hprepare⟩ := prepare_cases files (Path.directory path)
  refine ⟨widened, hwidens, ?_⟩
  rw [put, hprepare]
  cases failure with
  | some failure => exact Or.inl ⟨failure, rfl⟩
  | none =>
      rw [Progress.idle_andThen, write]
      cases hlater : widened.writeFile path content with
      | error failure => exact Or.inl ⟨failure, rfl⟩
      | ok later =>
          obtain ⟨place, hresolve, hentry, rfl⟩ := exists_of_writeFile_eq_ok hlater
          exact Or.inr ⟨place, rfl, hresolve, hentry⟩

section Induction

variable {R : Store → List (String × FileContent) → Store → Prop}

/-- What relates the files before and after two parts of some progress relates those
before and after both. -/
theorem related_andThen
    (htrans : ∀ {first second third written written'}, R first written second →
      R second written' third → R first (written ++ written') third)
    {files : Store} {first : Progress} {next : Store → Progress}
    (hfirst : R files first.written first.files)
    (hnext : ∀ later, R later (next later).written (next later).files) :
    R files (first.andThen next).written (first.andThen next).files := by
  cases hfailure : first.failure with
  | some failure => rwa [Progress.andThen_of_failure hfailure]
  | none =>
      rw [Progress.andThen_of_done hfailure]
      exact htrans hfirst (hnext first.files)

/-- What relates the files before and after each step relates those before and after
all that were carried out. -/
theorem related_carryOut (hrefl : ∀ files, R files [] files)
    (htrans : ∀ {first second third written written'}, R first written second →
      R second written' third → R first (written ++ written') third)
    {steps : List Step}
    (hput : ∀ (files : Store) (file : String × FileContent), .ok file ∈ steps →
      R files (files.put file.1 file.2).written (files.put file.1 file.2).files)
    (files : Store) : R files (files.carryOut steps).written (files.carryOut steps).files := by
  induction steps generalizing files with
  | nil => exact hrefl files
  | cons step rest ih =>
      cases step with
      | error failure => exact hrefl files
      | ok file =>
          refine related_andThen htrans (hput files file List.mem_cons_self) (ih ?_)
          exact fun later other hother => hput later other (List.mem_cons_of_mem _ hother)

theorem related_carryOutIn (hwidens : ∀ {earlier later}, Widens earlier later → R earlier [] later)
    (htrans : ∀ {first second third written written'}, R first written second →
      R second written' third → R first (written ++ written') third)
    {steps : List Step}
    (hput : ∀ (files : Store) (file : String × FileContent), .ok file ∈ steps →
      R files (files.put file.1 file.2).written (files.put file.1 file.2).files)
    (files : Store) (directory : String) :
    R files (files.carryOutIn directory steps).written
      (files.carryOutIn directory steps).files := by
  refine related_andThen htrans ?_
    (related_carryOut (fun files => hwidens (Widens.refl files)) htrans hput)
  obtain ⟨widened, hwidened, failure, hprepare⟩ := prepare_cases files directory
  rw [hprepare]
  exact hwidens hwidened

end Induction

theorem keeps_put (files : Store) (path : String) (content : FileContent) :
    Keeps files (files.put path content).files := by
  obtain ⟨widened, hwidens, ⟨failure, hput⟩ | ⟨place, hput, _, hentry⟩⟩ :=
    put_cases files path content
  · rw [hput]
    exact hwidens.keeps
  · rw [hput]
    exact hwidens.keeps.trans (keeps_insert hentry content)

/-- Steps take nothing away. -/
theorem keeps_carryOutIn (files : Store) (directory : String) (steps : List Step) :
    Keeps files (files.carryOutIn directory steps).files :=
  related_carryOutIn (R := fun earlier _ later => Keeps earlier later) Widens.keeps Keeps.trans
    (fun files file _ => keeps_put files file.1 file.2) files directory

theorem carryOut_singleton (files : Store) (path : String) (content : FileContent) :
    files.carryOut [.ok (path, content)] = files.put path content := by
  rw [carryOut]
  exact Progress.andThen_idle _

theorem carryOut_append (files : Store) (first second : List Step) :
    files.carryOut (first ++ second) =
      (files.carryOut first).andThen fun later => later.carryOut second := by
  induction first generalizing files with
  | nil => rfl
  | cons step rest ih =>
      cases step with
      | error failure => rfl
      | ok file =>
          obtain ⟨path, content⟩ := file
          rw [List.cons_append, carryOut, carryOut, Progress.andThen_assoc]
          simp only [ih]

theorem carryOutIn_append (files : Store) (directory : String) (first second : List Step) :
    files.carryOutIn directory (first ++ second) =
      (files.carryOutIn directory first).andThen fun later => later.carryOut second := by
  simp only [carryOutIn, Progress.andThen_assoc, carryOut_append]

theorem written_put_of_done {files : Store} {path : String} {content : FileContent}
    (h : (files.put path content).failure = none) :
    (files.put path content).written = [(path, content)] := by
  obtain ⟨widened, _, ⟨failure, hput⟩ | ⟨place, hput, _, _⟩⟩ := put_cases files path content
  · simp [hput] at h
  · rw [hput]

/-- Steps are written as they say and in their order, up to one that fails. -/
theorem exists_rest_of_carryOut (files : Store) (steps : List Step) :
    ∃ rest, steps = (files.carryOut steps).written.map .ok ++ rest ∧
      ((files.carryOut steps).failure = none ↔ rest = []) := by
  induction steps generalizing files with
  | nil => exact ⟨[], rfl, by simp [carryOut]⟩
  | cons step rest ih =>
      cases step with
      | error failure => exact ⟨.error failure :: rest, rfl, by simp [carryOut]⟩
      | ok file =>
          obtain ⟨path, content⟩ := file
          rw [carryOut]
          obtain ⟨widened, _, ⟨failure, hput⟩ | ⟨place, hput, _, _⟩⟩ :=
            put_cases files path content
          · rw [hput, Progress.andThen_of_failure rfl]
            exact ⟨.ok (path, content) :: rest, by simp, by simp⟩
          · obtain ⟨left, hleft, hdone⟩ := ih (widened.insert place (.file content))
            rw [hput, Progress.andThen_of_done rfl]
            exact ⟨left, by simpa using hleft, by simpa using hdone⟩

/-- A directory that cannot be made stops all steps. -/
theorem exists_rest_of_carryOutIn (files : Store) (directory : String) {steps : List Step}
    (hsteps : steps ≠ []) :
    ∃ rest, steps = (files.carryOutIn directory steps).written.map .ok ++ rest ∧
      ((files.carryOutIn directory steps).failure = none ↔ rest = []) := by
  obtain ⟨widened, _, failure, hprepare⟩ := prepare_cases files directory
  rw [carryOutIn, hprepare]
  cases failure with
  | none => exact exists_rest_of_carryOut widened steps
  | some failure =>
      rw [Progress.andThen_of_failure rfl]
      exact ⟨steps, rfl, by simp [hsteps]⟩

theorem written_carryOutIn_of_done {files : Store} {directory : String} {steps : List Step}
    (h : (files.carryOutIn directory steps).failure = none) :
    (files.carryOutIn directory steps).written.map .ok = steps := by
  obtain ⟨widened, _, failure, hprepare⟩ := prepare_cases files directory
  rw [carryOutIn, hprepare] at h ⊢
  cases failure with
  | some failure =>
      rw [Progress.andThen_of_failure rfl] at h
      cases h
  | none =>
      rw [Progress.idle_andThen] at h ⊢
      obtain ⟨rest, hrest, hdone⟩ := exists_rest_of_carryOut widened steps
      rw [hdone.mp h, List.append_nil] at hrest
      exact hrest.symm

end Store
end JavaSketch
