import JavaSketch.Java.Reader
import JavaSketch.Proofs.WrittenFiles

/-!
# Files that are left over

A source file whose documents cannot all be written is reported as failed; the
documents that were written before stay, and the report does not list them.  Those
and the listed files are all that a run makes or overwrites.

**Argument.**  What is there before a run are bytes from elsewhere, while a run
writes documents and texts.  So a file was made or overwritten by the run exactly if
it holds a document or a text when the run ends.

**Results.**
* `isMadeAt_iff_of_records`: files that were made are those that were written.
* `inMode_isMadeAt_iff`: what a run makes is listed or left over.
* `leftOver_indexIsDirectory`: a document that no report lists.
-/

namespace JavaSketch

open Syntax (Parser)

namespace FileContent

/-- Whether a file holds what a run writes, and not bytes from elsewhere. -/
def isMade : FileContent → Bool
  | raw _ => false
  | text _ => true
  | document _ => true

end FileContent

namespace Artifact

theorem isMade_of_mem_documentSteps {artifacts : List Artifact} {target : String}
    {file : String × FileContent} (h : .ok file ∈ documentSteps artifacts target) :
    file.2.isMade = true := by
  obtain ⟨⟨artifact, name⟩, _, hstep⟩ := List.mem_map.mp h
  obtain ⟨document, _, rfl⟩ := exists_of_step_eq_ok hstep
  rfl

theorem isMade_of_indexStep_eq_ok {artifacts : List Artifact}
    {workingDir target root source : String} {file : String × FileContent}
    (h : indexStep artifacts workingDir target root source = .ok file) :
    file.2.isMade = true := by
  obtain ⟨name, _, rfl⟩ := exists_of_indexStep_eq_ok h
  rfl

end Artifact

namespace Store

/-- Whether all files hold bytes from elsewhere. -/
def IsForeign (store : Store) : Prop :=
  ∀ place content, store.fileAt place = some content → content.isMade = false

/-- Whether at a place there is a file with what a run writes. -/
def IsMadeAt (store : Store) (place : Place) : Prop :=
  ∃ content, store.fileAt place = some content ∧ content.isMade = true

theorem mem_entries_of_fileAt_eq_some {store : Store} {place : Place} {content : FileContent}
    (h : store.fileAt place = some content) : (place, .file content) ∈ store.entries := by
  have hentry := fileAt_eq_some_iff.mp h
  unfold Store.entry at hentry
  split_ifs at hentry
  · cases Option.some.inj hentry
  · obtain ⟨before, after, hsplit, _⟩ := List.lookup_eq_some_iff.mp hentry
    rw [hsplit]
    exact List.mem_append_right _ List.mem_cons_self

/-- Among bytes from elsewhere, the files that were made are those that were written. -/
theorem isMadeAt_iff_of_records {earlier later : Store} {written : List (String × FileContent)}
    (hforeign : earlier.IsForeign) (hmade : ∀ file ∈ written, file.2.isMade = true)
    (h : Records earlier written later) (place : Place) :
    later.IsMadeAt place ↔ ∃ file ∈ written, later.resolve file.1 = .ok place := by
  constructor
  · rintro ⟨content, hcontent, hmadeContent⟩
    rw [h.fileAt] at hcontent
    rcases Option.or_eq_some_iff.mp hcontent with hlast | ⟨_, hbefore⟩
    · obtain ⟨file, hfile, _, hplace⟩ := exists_mem_of_lastWritten_eq_some hlast
      exact ⟨file, hfile, hplace⟩
    · simp [hforeign place content hbefore] at hmadeContent
  · rintro ⟨file, hfile, hplace⟩
    cases hlast : later.lastWritten place written with
    | none => exact absurd hplace (lastWritten_eq_none_iff.mp hlast file hfile)
    | some content =>
        -- what stays may be another file that was written there, but that was made as well
        obtain ⟨other, hother, rfl, _⟩ := exists_mem_of_lastWritten_eq_some hlast
        exact ⟨other.2, by rw [h.fileAt, hlast, Option.some_or], hmade other hother⟩

end Store

namespace Run

variable {parse : Parser} {mode : Mode} {outDir root : String}

theorem isMade_of_mem_steps {workingDir source : String} {artifacts : List Artifact}
    {file : String × FileContent}
    (h : .ok file ∈ steps mode workingDir outDir root source artifacts) :
    file.2.isMade = true := by
  rcases mem_steps_cases h with hdocument | hindex
  · exact Artifact.isMade_of_mem_documentSteps hdocument
  · exact Artifact.isMade_of_indexStep_eq_ok hindex

theorem isMade_of_mem_journal {files : Store} {sources : List String}
    {file : String × FileContent} (h : file ∈ journal parse mode outDir root files sources) :
    file.2.isMade = true := by
  obtain ⟨turn, _, hwritten⟩ := List.mem_flatMap.mp h
  obtain ⟨artifacts, hstep⟩ := exists_mem_steps_of_mem_writtenIn hwritten
  exact isMade_of_mem_steps hstep

/-- A file of the journal was written in a turn that is done or in one that failed. -/
theorem exists_mem_journal_iff {files : Store} {sources : List String} {P : String → Prop} :
    (∃ file ∈ journal parse mode outDir root files sources, P file.1) ↔
      (∃ path ∈ ((turns parse mode outDir root files sources).filter
          (isDone parse mode outDir root)).flatMap
            (fun turn => (writtenIn parse mode outDir root turn).map (·.1)), P path) ∨
        ∃ turn ∈ (turns parse mode outDir root files sources).filter
            (!isDone parse mode outDir root ·),
          ∃ file ∈ writtenIn parse mode outDir root turn, P file.1 := by
  simp only [journal, List.mem_flatMap, List.mem_filter, List.mem_map, Bool.not_eq_true']
  constructor
  · rintro ⟨file, ⟨turn, hturn, hfile⟩, hholds⟩
    cases hdone : isDone parse mode outDir root turn with
    | true => exact Or.inl ⟨file.1, ⟨turn, ⟨hturn, hdone⟩, file, hfile, rfl⟩, hholds⟩
    | false => exact Or.inr ⟨turn, ⟨hturn, hdone⟩, file, hfile, hholds⟩
  · rintro (⟨_, ⟨turn, ⟨hturn, _⟩, file, hfile, rfl⟩, hholds⟩ |
      ⟨turn, ⟨hturn, _⟩, file, hfile, hholds⟩)
    · exact ⟨file, ⟨turn, hturn, hfile⟩, hholds⟩
    · exact ⟨file, ⟨turn, hturn, hfile⟩, hholds⟩

/-- **What a run makes or overwrites.**  Where all files held bytes from elsewhere,
these are the files that the report lists and those that were left over in the turns
that failed, which are the turns of the sources that the report gives as failed: the
first documents of a source, never its index, and nothing where each source has one
document. -/
theorem inMode_isMadeAt_iff (parse : Parser) {mode : Mode} (path outDir : String)
    (tablePath : Option String) {session : Session} (hmode : mode ≠ .table)
    (hforeign : session.store.IsForeign) :
    let root := rootOf session.store path
    let turns := turns parse mode outDir root session.store (session.store.discover path)
    let failed := turns.filter (!isDone parse mode outDir root ·)
    let written := writtenIn parse mode outDir root
    ∃ report later, (inMode parse path mode outDir tablePath).run session = (.ok report, later) ∧
      report.processed = (turns.filter (isDone parse mode outDir root)).map (·.1) ∧
      (∀ source, source ∈ report.failed.map (·.1) ↔ source ∈ failed.map (·.1)) ∧
      (∀ listed ∈ report.written, ∃ place, later.store.resolve listed = .ok place) ∧
      (∀ place, later.store.IsMadeAt place ↔
        (∃ listed ∈ report.written, later.store.resolve listed = .ok place) ∨
          ∃ turn ∈ failed, ∃ file ∈ written turn, later.store.resolve file.1 = .ok place) ∧
      ∀ turn ∈ failed, written turn = [] ∨
        mode = .pseudocode ∧ ∃ artifacts, examine parse mode turn.2 turn.1 = .ok artifacts ∧
          (written turn).map (·.1) <+: (documentFiles artifacts).map
            (Path.join (Path.join outDir mode.folder)) := by
  intro root turns failed written
  obtain ⟨report, later, hrun, hstore, hprocessed, hreportFailed, hwritten⟩ :=
    exists_run_inMode parse hmode path outDir tablePath session
  have hrecords := records_turns parse mode outDir root session.store
    (session.store.discover path)
  rw [← hstore] at hrecords
  refine ⟨report, later, hrun, hprocessed, hreportFailed, fun listed hlisted => ?_,
    fun place => ?_, fun turn hturn => ?_⟩
  · rw [hwritten] at hlisted
    obtain ⟨file, hfile, hpath⟩ := exists_mem_journal_iff.mpr (Or.inl ⟨listed, hlisted, rfl⟩)
    exact hpath ▸ hrecords.resolved file hfile
  · rw [Store.isMadeAt_iff_of_records hforeign (fun file => isMade_of_mem_journal) hrecords,
      exists_mem_journal_iff (P := fun path => later.store.resolve path = .ok place), hwritten]
  · have hfailed : isDone parse mode outDir root turn = false := by
      simpa using (List.mem_filter.mp hturn).2
    cases mode with
    | pseudocode => exact (paths_of_failed hfailed).imp_right fun hpaths => ⟨rfl, hpaths⟩
    | classes => exact Or.inl (writtenIn_of_failed_classes hfailed)
    | table => exact absurd rfl hmode

/-- A source file where a directory stands in the place of its index. -/
def indexIsDirectory : Session :=
  ⟨⟨"/", [(["s"], .directory), (["out"], .directory), (["out", "pseudocode"], .directory),
      (["out", "pseudocode", "A.json"], .directory),
      (["s", "A.java"], .file (.raw "class A \x7bvoid f()\x7b\x7d\x7d".toUTF8))]⟩, [], false⟩

theorem isForeign_indexIsDirectory : indexIsDirectory.store.IsForeign := by
  intro place content hcontent
  have hmem := Store.mem_entries_of_fileAt_eq_some hcontent
  have hsource : place = ["s", "A.java"] ∧
      content = .raw "class A \x7bvoid f()\x7b\x7d\x7d".toUTF8 := by
    simpa [indexIsDirectory] using hmem
  rw [hsource.2]
  rfl

theorem examine_indexIsDirectory :
    examine Java.parse .pseudocode indexIsDirectory.store "s/A.java" =
      .ok [⟨"A f", ["endprocedure"]⟩] := by
  decide +kernel

/-- The files with the document of its method. -/
def besideIndexDirectory : Store :=
  indexIsDirectory.store.insert ["out", "pseudocode", "A f.docx"]
    (.file (.document ⟨"A f", ["endprocedure"]⟩))

theorem paths_indexIsDirectory :
    rootOf indexIsDirectory.store "s" = "s" ∧
      indexIsDirectory.store.discover "s" = ["s/A.java"] ∧
      besideIndexDirectory.resolve "out/pseudocode/A f.docx" =
        .ok ["out", "pseudocode", "A f.docx"] :=
  ⟨by decide, Store.discover_of_directory rfl rfl (by decide)
    (List.pairwise_singleton _ _), by decide⟩

/-- At its turn the document of its method is written, and then its index cannot be. -/
theorem turn_indexIsDirectory :
    turn Java.parse .pseudocode "out" "s" indexIsDirectory.store "s/A.java" =
      ⟨[("out/pseudocode/A f.docx", .document ⟨"A f", ["endprocedure"]⟩)],
        some (.fileSystem .isDirectory "out/pseudocode/A.json"), besideIndexDirectory⟩ := by
  rw [turn, examine_indexIsDirectory]
  decide +kernel

/-- The run lists nothing and leaves the files as they are after that turn. -/
theorem exists_run_indexIsDirectory :
    ∃ report later,
      (inMode Java.parse "s" .pseudocode "out" none).run indexIsDirectory = (.ok report, later) ∧
      report.written = [] ∧ later.store = besideIndexDirectory := by
  have hmode : Mode.pseudocode ≠ .table := by decide
  obtain ⟨report, later, hrun, hstore, _, _, hwritten⟩ :=
    exists_run_inMode Java.parse hmode "s" "out" none indexIsDirectory
  rw [paths_indexIsDirectory.1, paths_indexIsDirectory.2.1] at hstore hwritten
  rw [turns_singleton, List.filter_singleton, isDone, turn_indexIsDirectory] at hwritten
  rw [filesAfter_singleton, turn_indexIsDirectory] at hstore
  exact ⟨report, later, hrun, hwritten, hstore⟩

/-- That document is all that is made.  It is not listed, but is the first of the
documents of the one source that failed. -/
theorem isMadeAt_indexIsDirectory :
    Mode.pseudocode ≠ .table ∧ indexIsDirectory.store.IsForeign ∧
      ∃ report later artifacts,
        (inMode Java.parse "s" .pseudocode "out" none).run indexIsDirectory =
          (.ok report, later) ∧
        report.written = [] ∧
        (∀ source, source ∈ report.failed.map (·.1) ↔ source = "s/A.java") ∧
        examine Java.parse .pseudocode indexIsDirectory.store "s/A.java" = .ok artifacts ∧
        ["out/pseudocode/A f.docx"] <+: (documentFiles artifacts).map
          (Path.join (Path.join "out" Mode.pseudocode.folder)) ∧
        ∀ place, later.store.IsMadeAt place ↔ place = ["out", "pseudocode", "A f.docx"] := by
  have hmode : Mode.pseudocode ≠ .table := by decide
  obtain ⟨report, later, hrun, _, hfailed, _, hmade, hleft⟩ :=
    inMode_isMadeAt_iff Java.parse "s" "out" none hmode isForeign_indexIsDirectory
  obtain ⟨_, _, hgiven, hlisted, hstore⟩ := exists_run_indexIsDirectory
  obtain ⟨hreport, rfl⟩ := Prod.mk.inj (hrun.symm.trans hgiven)
  obtain rfl := Except.ok.inj hreport
  have hwritten : writtenIn Java.parse .pseudocode "out" "s" ("s/A.java", indexIsDirectory.store) =
      [("out/pseudocode/A f.docx", .document ⟨"A f", ["endprocedure"]⟩)] := by
    rw [writtenIn_mk, turn_indexIsDirectory]
  have honly : (turns Java.parse .pseudocode "out" "s" indexIsDirectory.store ["s/A.java"]).filter
      (!isDone Java.parse .pseudocode "out" "s" ·) = [("s/A.java", indexIsDirectory.store)] := by
    rw [turns_singleton, List.filter_singleton, isDone, turn_indexIsDirectory]
    rfl
  rw [paths_indexIsDirectory.1, paths_indexIsDirectory.2.1, honly] at hfailed hmade hleft
  rcases hleft _ List.mem_cons_self with hnothing | ⟨_, artifacts, hexamine, hfirst⟩
  · rw [hwritten] at hnothing
    cases hnothing
  rw [hwritten] at hfirst
  refine ⟨hmode, isForeign_indexIsDirectory, report, later, artifacts, hrun, hlisted,
    fun source => (hfailed source).trans (by simp), hexamine, hfirst, fun place => ?_⟩
  rw [hmade place, hlisted, hstore]
  simp [hwritten, paths_indexIsDirectory.2.2, eq_comm]

/-- The document of its method is left over, while the report lists nothing. -/
theorem leftOver_indexIsDirectory :
    indexIsDirectory.store.IsForeign ∧
      ∃ report later,
        (inMode Java.parse "s" .pseudocode "out" none).run indexIsDirectory =
          (.ok report, later) ∧
        report.written = [] ∧ later.store.IsMadeAt ["out", "pseudocode", "A f.docx"] := by
  obtain ⟨report, later, hrun, hlisted, hstore⟩ := exists_run_indexIsDirectory
  refine ⟨isForeign_indexIsDirectory, report, later, hrun, hlisted, ?_⟩
  rw [hstore]
  exact ⟨_, rfl, rfl⟩

end Run
end JavaSketch
