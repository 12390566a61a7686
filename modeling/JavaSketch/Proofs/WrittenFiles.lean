import JavaSketch.Proofs.Journal
import JavaSketch.Proofs.Reports

/-!
# Files that turns have written

The files that a source file is to become have names of their own in the folder of
the mode.  A turn that is done has written them all; a turn that failed has written
the first of its documents, or none, and never its index.  The report lists what was
written in the turns that are done.

**Results.**
* `nodup_fileNames`: the files of one source have different names.
* `paths_of_done`, `paths_of_failed`: which paths a turn has written.
* `exists_run_inMode`: what a run over the sources of a path gives.
-/

namespace JavaSketch

open Syntax (Parser)
open JavaSketch.Action (ActsAs)

namespace Run

/-- The names of the documents of some artifacts. -/
def documentFiles (artifacts : List Artifact) : List String :=
  (Artifact.documentNames (artifacts.map (·.label))).map (· ++ ".docx")

/-- The name of the index of a source file, if that has a module name. -/
def indexFiles (workingDir root source : String) : List String :=
  match moduleName workingDir source root with
  | .ok name => [Artifact.indexName source name ++ ".json"]
  | .error _ => []

/-- The names of the files that a source file is to become. -/
def fileNames (mode : Mode) (workingDir root source : String) (artifacts : List Artifact) :
    List String :=
  match mode with
  | .pseudocode =>
      if artifacts.isEmpty then []
      else documentFiles artifacts ++ indexFiles workingDir root source
  | .classes => documentFiles artifacts
  | .table => []

section Names

variable {mode : Mode} {workingDir outDir root source target : String}
  {artifacts : List Artifact} {written : List (String × FileContent)}

theorem map_join_documentFiles :
    (documentFiles artifacts).map (Path.join target) =
      Artifact.documentPaths (artifacts.map (·.label)) target := by
  rw [documentFiles, List.map_map]
  rfl

theorem nodup_documentFiles (artifacts : List Artifact) : (documentFiles artifacts).Nodup := by
  refine (Artifact.nodup_documentNames _).map fun first second h => ?_
  have hlists := congrArg String.toList h
  rw [String.toList_append, String.toList_append] at hlists
  exact String.toList_inj.mp (List.append_cancel_right hlists)

theorem not_mem_indexFiles_of_mem_documentFiles {name : String}
    (h : name ∈ documentFiles artifacts) : name ∉ indexFiles workingDir root source := by
  obtain ⟨document, _, rfl⟩ := List.mem_map.mp h
  unfold indexFiles
  cases moduleName workingDir source root with
  | error failure => exact List.not_mem_nil
  | ok index =>
      rw [List.mem_singleton]
      intro heq
      have hlists := congrArg String.toList heq
      rw [String.toList_append, String.toList_append] at hlists
      have hextensions := (List.append_inj' hlists (by decide)).2
      exact absurd hextensions (by decide)

/-- The files of one source have different names. -/
theorem nodup_fileNames : (fileNames mode workingDir root source artifacts).Nodup := by
  cases mode with
  | pseudocode =>
      simp only [fileNames]
      split_ifs
      · exact List.nodup_nil
      · refine (nodup_documentFiles artifacts).append ?_ fun name hname =>
          not_mem_indexFiles_of_mem_documentFiles hname
        unfold indexFiles
        split
        · exact List.nodup_singleton _
        · exact List.nodup_nil
  | classes => exact nodup_documentFiles artifacts
  | table => exact List.nodup_nil

theorem isName_of_mem_documentFiles {name : String} (h : name ∈ documentFiles artifacts) :
    Path.IsName name := by
  obtain ⟨document, hdocument, rfl⟩ := List.mem_map.mp h
  exact Artifact.isName_documentName hdocument

theorem isName_of_mem_fileNames {name : String}
    (h : name ∈ fileNames mode workingDir root source artifacts) : Path.IsName name := by
  cases mode with
  | pseudocode =>
      simp only [fileNames] at h
      split_ifs at h
      · simp at h
      · rcases List.mem_append.mp h with hdocument | hindex
        · exact isName_of_mem_documentFiles hdocument
        · unfold indexFiles at hindex
          cases hmodule : moduleName workingDir source root with
          | error failure => simp [hmodule] at hindex
          | ok name' =>
              simp only [hmodule, List.mem_singleton] at hindex
              rw [hindex]
              exact Artifact.isName_indexFile hmodule
  | classes => exact isName_of_mem_documentFiles h
  | table => simp [fileNames] at h

theorem documentFiles_prefix_fileNames (hmode : mode ≠ .table) :
    documentFiles artifacts <+: fileNames mode workingDir root source artifacts := by
  cases mode with
  | pseudocode =>
      simp only [fileNames]
      split_ifs with hempty
      · rw [List.isEmpty_iff.mp hempty]
        exact List.prefix_rfl
      · exact List.prefix_append _ _
  | classes => exact List.prefix_rfl
  | table => exact absurd rfl hmode

/-- Steps that were all carried out have written all files. -/
theorem paths_of_steps
    (h : written.map .ok = steps mode workingDir outDir root source artifacts) :
    written.map (·.1) = (fileNames mode workingDir root source artifacts).map
      (Path.join (Path.join outDir mode.folder)) := by
  cases mode with
  | pseudocode =>
      simp only [steps, fileNames] at h ⊢
      split_ifs at h ⊢
      · simpa using h
      · obtain ⟨documents, index, rfl, hdocuments, hindex⟩ := List.map_eq_append_iff.mp h
        obtain ⟨file, rfl, hfile⟩ := List.map_eq_singleton_iff.mp hindex
        rw [List.map_append, List.map_append, map_join_documentFiles,
          Artifact.paths_of_documentSteps hdocuments]
        obtain ⟨name, hname, rfl⟩ := Artifact.exists_of_indexStep_eq_ok hfile.symm
        rw [indexFiles, hname]
        rfl
  | classes =>
      rw [fileNames, map_join_documentFiles]
      exact Artifact.paths_of_documentSteps h
  | table => simpa [steps, fileNames] using h

/-- Steps that were not all carried out have written documents at most. -/
theorem paths_of_unfinished_steps {rest : List Step} (hrest : rest ≠ [])
    (h : steps mode workingDir outDir root source artifacts = written.map .ok ++ rest) :
    written.map (·.1) <+: (documentFiles artifacts).map
      (Path.join (Path.join outDir mode.folder)) := by
  rw [map_join_documentFiles]
  cases mode with
  | pseudocode =>
      simp only [steps] at h
      split_ifs at h
      · exact absurd (List.append_eq_nil_iff.mp h.symm).2 hrest
      · -- the index comes last, so it is among the steps that were not carried out
        obtain hnil | ⟨init, last, rfl⟩ := List.eq_nil_or_concat rest
        · exact absurd hnil hrest
        · rw [List.concat_eq_append, ← List.append_assoc] at h
          exact Artifact.paths_of_prefix_documentSteps ⟨init, (List.append_inj' h rfl).1.symm⟩
  | classes => exact Artifact.paths_of_prefix_documentSteps ⟨rest, h.symm⟩
  | table => exact absurd (List.append_eq_nil_iff.mp h.symm).2 hrest

end Names

variable (parse : Parser) (mode : Mode) (outDir root : String)

/-- Whether the turn of a source file came to its end. -/
def isDone (turn : String × Store) : Bool :=
  (Run.turn parse mode outDir root turn.2 turn.1).failure.isNone

/-- The names of the files that a source file is to become at its turn. -/
def namesAt (turn : String × Store) : List String :=
  match examine parse mode turn.2 turn.1 with
  | .ok artifacts => fileNames mode turn.2.workingDir root turn.1 artifacts
  | .error _ => []

/-- What was written in a turn are the first of the steps planned for it. -/
theorem exists_rest_of_turn (turn : String × Store) :
    ((∃ failure, examine parse mode turn.2 turn.1 = .error failure) ∧
        writtenIn parse mode outDir root turn = [] ∧
        isDone parse mode outDir root turn = false) ∨
      ∃ artifacts rest, examine parse mode turn.2 turn.1 = .ok artifacts ∧
        steps mode turn.2.workingDir outDir root turn.1 artifacts =
          (writtenIn parse mode outDir root turn).map .ok ++ rest ∧
        (isDone parse mode outDir root turn = true ↔ rest = []) := by
  unfold writtenIn isDone
  rcases turn_cases parse mode outDir root turn.2 turn.1 with
    ⟨failure, hexamine, hturn⟩ | ⟨artifacts, hexamine, ⟨hsteps, hturn⟩ | ⟨_, hsteps, hturn⟩⟩
  · rw [hturn]
    exact Or.inl ⟨⟨failure, hexamine⟩, rfl, rfl⟩
  · rw [hturn]
    exact Or.inr ⟨artifacts, [], hexamine, hsteps, by simp⟩
  · rw [hturn]
    obtain ⟨rest, hrest, hdone⟩ := turn.2.exists_rest_of_carryOutIn
      (Path.join outDir mode.folder) hsteps
    exact Or.inr ⟨artifacts, rest, hexamine, hrest, by rw [Option.isNone_iff_eq_none, hdone]⟩

variable {parse mode outDir root} {turn : String × Store}

/-- A turn that is done has written the files of its names. -/
theorem paths_of_done (h : isDone parse mode outDir root turn = true) :
    (writtenIn parse mode outDir root turn).map (·.1) =
      (namesAt parse mode root turn).map (Path.join (Path.join outDir mode.folder)) := by
  obtain ⟨_, _, hfailed⟩ | ⟨artifacts, rest, hexamine, hsteps, hdone⟩ :=
    exists_rest_of_turn parse mode outDir root turn
  · rw [hfailed] at h
    cases h
  · rw [hdone.mp h, List.append_nil] at hsteps
    rw [namesAt, hexamine]
    exact paths_of_steps hsteps.symm

/-- A turn that failed has written the first of its documents, or nothing. -/
theorem paths_of_failed (h : isDone parse mode outDir root turn = false) :
    writtenIn parse mode outDir root turn = [] ∨
      ∃ artifacts, examine parse mode turn.2 turn.1 = .ok artifacts ∧
        (writtenIn parse mode outDir root turn).map (·.1) <+:
          (documentFiles artifacts).map (Path.join (Path.join outDir mode.folder)) := by
  obtain ⟨_, hnothing, _⟩ | ⟨artifacts, rest, hexamine, hsteps, hdone⟩ :=
    exists_rest_of_turn parse mode outDir root turn
  · exact Or.inl hnothing
  · have hrest : rest ≠ [] := fun hnil => by simp [hdone.mpr hnil] at h
    exact Or.inr ⟨artifacts, hexamine, paths_of_unfinished_steps hrest hsteps⟩

/-- Where there is one document a turn that failed has written nothing. -/
theorem writtenIn_of_failed_classes (h : isDone parse .classes outDir root turn = false) :
    writtenIn parse .classes outDir root turn = [] := by
  obtain ⟨_, hnothing, _⟩ | ⟨artifacts, rest, hexamine, hsteps, hdone⟩ :=
    exists_rest_of_turn parse .classes outDir root turn
  · exact hnothing
  · have hrest : rest ≠ [] := fun hnil => by simp [hdone.mpr hnil] at h
    have hone : artifacts.length = 1 := by
      obtain ⟨text, _, hartifacts⟩ := bind_eq_ok_iff.mp hexamine
      obtain rfl := pure_eq_ok_iff.mp hartifacts
      rfl
    have hlength := congrArg List.length hsteps
    simp only [steps, Artifact.documentSteps, List.length_map, List.length_zip,
      Artifact.length_documentNames, hone, List.length_append] at hlength
    have hpos := List.length_pos_iff.mpr hrest
    exact List.length_eq_zero_iff.mp (by omega)

theorem exists_mem_steps_of_mem_writtenIn {file : String × FileContent}
    (h : file ∈ writtenIn parse mode outDir root turn) :
    ∃ artifacts, .ok file ∈ steps mode turn.2.workingDir outDir root turn.1 artifacts := by
  obtain ⟨_, hnothing, _⟩ | ⟨artifacts, rest, _, hsteps, _⟩ :=
    exists_rest_of_turn parse mode outDir root turn
  · simp [hnothing] at h
  · exact ⟨artifacts, hsteps ▸ List.mem_append_left rest (List.mem_map_of_mem h)⟩

/-- What is written in a turn goes by the names of its files, in their order. -/
theorem paths_prefix_names (hmode : mode ≠ .table) (turn : String × Store) :
    (writtenIn parse mode outDir root turn).map (·.1) <+:
      (namesAt parse mode root turn).map (Path.join (Path.join outDir mode.folder)) := by
  cases hdone : isDone parse mode outDir root turn with
  | true => exact ⟨[], by rw [List.append_nil, paths_of_done hdone]⟩
  | false =>
      obtain hnothing | ⟨artifacts, hexamine, hpaths⟩ := paths_of_failed hdone
      · simp [hnothing]
      · rw [namesAt, hexamine]
        exact hpaths.trans ((documentFiles_prefix_fileNames hmode).map _)

theorem isName_of_mem_namesAt {name : String} (h : name ∈ namesAt parse mode root turn) :
    Path.IsName name := by
  unfold namesAt at h
  cases hexamine : examine parse mode turn.2 turn.1 with
  | error failure => simp [hexamine] at h
  | ok artifacts =>
      rw [hexamine] at h
      exact isName_of_mem_fileNames h

theorem nodup_namesAt (turn : String × Store) : (namesAt parse mode root turn).Nodup := by
  unfold namesAt
  cases examine parse mode turn.2 turn.1 with
  | error failure => exact List.nodup_nil
  | ok artifacts => exact nodup_fileNames

section Report

variable {files : Store} {sources : List String}

/-- One source has one turn, on the files as they are. -/
theorem turns_singleton (source : String) :
    turns parse mode outDir root files [source] = [(source, files)] :=
  rfl

theorem filesAfter_singleton (source : String) :
    filesAfter parse mode outDir root files [source] =
      (Run.turn parse mode outDir root files source).files :=
  files_outcome _

theorem value?_outcomeOf (turn : String × Store) :
    (Batch.outcomeOf (turnEffect parse mode outDir root) turn).value? =
      if isDone parse mode outDir root turn then
        some ((writtenIn parse mode outDir root turn).map (·.1))
      else none := by
  unfold isDone writtenIn Batch.outcomeOf turnEffect Progress.outcome
  generalize Run.turn parse mode outDir root turn.2 turn.1 = progress
  cases hfailure : progress.failure with
  | none => exact Outcome.value?_of_ok (by rw [Progress.give_of_done hfailure])
  | some failure => exact Outcome.value?_of_error (by rw [Progress.give_of_failure hfailure])

/-- What turns report as written are the paths of those that are done. -/
theorem values_outcomes :
    Batch.values (outcomes parse mode outDir root files sources) =
      ((turns parse mode outDir root files sources).filter (isDone parse mode outDir root)).map
        fun turn => (writtenIn parse mode outDir root turn).map (·.1) := by
  unfold Batch.values outcomes
  rw [List.filterMap_map, ← List.filterMap_eq_map, List.filterMap_filter]
  refine List.filterMap_congr fun turn _ => ?_
  rw [Function.comp_apply, value?_outcomeOf]
  rfl

theorem processed_outcomes (written : List String) :
    (Batch.report (outcomes parse mode outDir root files sources) written).processed =
      ((turns parse mode outDir root files sources).filter (isDone parse mode outDir root)).map
        (·.1) := by
  simp only [Batch.report, outcomes, List.filter_map, List.map_map]
  have hdone : (fun outcome => outcome.value?.isSome) ∘
      Batch.outcomeOf (turnEffect parse mode outDir root) = isDone parse mode outDir root := by
    funext turn
    rw [Function.comp_apply, value?_outcomeOf]
    cases isDone parse mode outDir root turn <;> rfl
  rw [hdone]
  rfl

/-- The paths that are reported as failed are those of the turns that are not done. -/
theorem mem_failed_outcomes {source : String} (written : List String) :
    source ∈ (Batch.report (outcomes parse mode outDir root files sources) written).failed.map
        (·.1) ↔
      source ∈ ((turns parse mode outDir root files sources).filter
        (!isDone parse mode outDir root ·)).map (·.1) := by
  refine Batch.mem_map_fst_failures.trans ?_
  simp only [outcomes, List.mem_map, List.mem_filter, Bool.not_eq_true']
  constructor
  · rintro ⟨outcome, ⟨turn, hturn, rfl⟩, hnone, rfl⟩
    rw [value?_outcomeOf] at hnone
    split_ifs at hnone with hdone
    exact ⟨turn, ⟨hturn, by simpa using hdone⟩, rfl⟩
  · rintro ⟨turn, ⟨hturn, hfailed⟩, rfl⟩
    exact ⟨_, ⟨turn, hturn, rfl⟩, by rw [value?_outcomeOf, hfailed]; rfl, rfl⟩

theorem actsAs_inMode (hmode : mode ≠ .table) (path : String) (tablePath : Option String) :
    ActsAs (inMode parse path mode outDir tablePath) fun files =>
      let sources := files.discover path
      let root := rootOf files path
      let outcomes := outcomes parse mode outDir root files sources
      (.ok (Batch.report outcomes (Batch.values outcomes).flatten),
        filesAfter parse mode outDir root files sources) :=
  (ActsAs.store.bind fun _ => (ActsAs.tell _).bind fun _ =>
    actsAs_ofSources parse mode outDir _ _ _ hmode).of_eq rfl

/-- A run over the sources of a path takes their turns and reports which are done, what
was written in these, and which failed. -/
theorem exists_run_inMode (parse : Parser) (hmode : mode ≠ .table) (path outDir : String)
    (tablePath : Option String) (session : Session) :
    let root := rootOf session.store path
    let sources := session.store.discover path
    let turns := turns parse mode outDir root session.store sources
    let done := turns.filter (isDone parse mode outDir root)
    let failed := turns.filter (!isDone parse mode outDir root ·)
    ∃ report later, (inMode parse path mode outDir tablePath).run session = (.ok report, later) ∧
      later.store = filesAfter parse mode outDir root session.store sources ∧
      report.processed = done.map (·.1) ∧
      (∀ source, source ∈ report.failed.map (·.1) ↔ source ∈ failed.map (·.1)) ∧
      report.written = done.flatMap fun turn =>
        (writtenIn parse mode outDir root turn).map (·.1) := by
  intro root sources turns done failed
  obtain ⟨later, hrun, hstore⟩ :=
    (actsAs_inMode hmode path tablePath).exists_run session rfl
  refine ⟨_, later, hrun, hstore, processed_outcomes _, fun source => mem_failed_outcomes _, ?_⟩
  simp only [Batch.report, values_outcomes, ← List.flatMap_def, root, sources, turns, done]

end Report

theorem isOutput_of_mem_writtenIn {file : String × FileContent}
    (h : file ∈ writtenIn parse mode outDir root turn) :
    IsOutput (Path.join outDir mode.folder) file.1 := by
  obtain ⟨artifacts, hstep⟩ := exists_mem_steps_of_mem_writtenIn h
  exact isOutput_of_mem_steps hstep

end Run
end JavaSketch
