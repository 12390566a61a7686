import JavaSketch.Java.Reader
import JavaSketch.Proofs.WrittenFiles

/-!
# Names that sources share

The files of one source have different names, but nothing keeps two sources apart:
all of them write to one folder, and names are chosen for each source alone.  A run
writes a path twice exactly if two of its sources share a name; what was written
last is what stays.

**Results.**
* `inMode_nodup_written_iff`: when a run writes no path twice.
* `written_sameNameTwice`: two sources that share the name of their document.
-/

namespace JavaSketch

open Syntax (Parser)

namespace Run

variable {parse : Parser} {mode : Mode} {outDir root : String} {files : Store}
  {sources : List String}

/-- Paths of names below the folder of a mode are different if the names are. -/
theorem nodup_flatMap_join_iff (hmode : mode ≠ .table) (outDir : String)
    (turns : List (String × Store)) :
    (turns.flatMap fun turn =>
        (namesAt parse mode root turn).map (Path.join (Path.join outDir mode.folder))).Nodup ↔
      turns.Pairwise fun first second =>
        (namesAt parse mode root first).Disjoint (namesAt parse mode root second) := by
  have htarget := canHold_target hmode outDir
  rw [List.nodup_flatMap]
  constructor
  · rintro ⟨_, hpairwise⟩
    refine hpairwise.imp fun hdisjoint name hfirst hsecond => ?_
    exact hdisjoint (List.mem_map_of_mem hfirst) (List.mem_map_of_mem hsecond)
  · intro hpairwise
    refine ⟨fun turn _ => ?_, hpairwise.imp fun {first second} hdisjoint path hfirst hsecond => ?_⟩
    · exact Path.nodup_map_join htarget (fun name => isName_of_mem_namesAt) (nodup_namesAt turn)
    · obtain ⟨name, hname, rfl⟩ := List.mem_map.mp hfirst
      obtain ⟨name', hname', heq⟩ := List.mem_map.mp hsecond
      obtain rfl := Path.join_right_injective htarget (isName_of_mem_namesAt hname')
        (isName_of_mem_namesAt hname) heq
      exact hdisjoint hname hname'

theorem map_fst_journal :
    (journal parse mode outDir root files sources).map (·.1) =
      (turns parse mode outDir root files sources).flatMap fun turn =>
        (writtenIn parse mode outDir root turn).map (·.1) := by
  rw [journal, List.map_flatMap]

/-- Sources that share no names write no path twice. -/
theorem nodup_paths_journal (hmode : mode ≠ .table) (outDir : String)
    (h : (turns parse mode outDir root files sources).Pairwise fun first second =>
      (namesAt parse mode root first).Disjoint (namesAt parse mode root second)) :
    ((journal parse mode outDir root files sources).map (·.1)).Nodup := by
  have hnames := (nodup_flatMap_join_iff hmode outDir _).mpr h
  rw [map_fst_journal]
  refine hnames.sublist ?_
  generalize turns parse mode outDir root files sources = turns
  induction turns with
  | nil => exact List.Sublist.refl _
  | cons turn rest ih =>
      exact (paths_prefix_names hmode turn).sublist.append ih

theorem isOutput_of_mem_journal {file : String × FileContent}
    (h : file ∈ journal parse mode outDir root files sources) :
    IsOutput (Path.join outDir mode.folder) file.1 := by
  obtain ⟨turn, _, hwritten⟩ := List.mem_flatMap.mp h
  exact isOutput_of_mem_writtenIn hwritten

/-- **When a run writes no path twice.**  The turns that are done write the files of
their names, and these are different within one turn; the paths that the report
lists are different exactly if no two of these turns share a name.  A path leads to
what was written last under it, so if no two turns at all share a name, every path
leads to what was written under it. -/
theorem inMode_nodup_written_iff (parse : Parser) {mode : Mode} (path outDir : String)
    (tablePath : Option String) (session : Session) (hmode : mode ≠ .table) :
    let root := rootOf session.store path
    let turns := turns parse mode outDir root session.store (session.store.discover path)
    let done := turns.filter (isDone parse mode outDir root)
    let names := namesAt parse mode root
    let written := turns.flatMap (writtenIn parse mode outDir root)
    ∃ report later, (inMode parse path mode outDir tablePath).run session = (.ok report, later) ∧
      report.processed = done.map (·.1) ∧
      report.written =
        done.flatMap (fun turn => (names turn).map (Path.join (Path.join outDir mode.folder))) ∧
      (∀ turn, (names turn).Nodup) ∧
      (report.written.Nodup ↔
        done.Pairwise fun first second => (names first).Disjoint (names second)) ∧
      (∀ before file after, written = before ++ file :: after →
        (∀ other ∈ after, other.1 ≠ file.1) →
        later.store.find? file.1 = some (.file file.2)) ∧
      ((turns.Pairwise fun first second => (names first).Disjoint (names second)) →
        ∀ file ∈ written, later.store.find? file.1 = some (.file file.2)) := by
  intro root turns done names written
  obtain ⟨report, later, hrun, hstore, hprocessed, _, hreported⟩ :=
    exists_run_inMode parse hmode path outDir tablePath session
  have hwritten : report.written =
      done.flatMap (fun turn => (names turn).map (Path.join (Path.join outDir mode.folder))) := by
    rw [hreported]
    exact List.flatMap_congr fun turn hturn => paths_of_done (List.mem_filter.mp hturn).2
  have hrecords := records_turns parse mode outDir root session.store
    (session.store.discover path)
  rw [← hstore] at hrecords
  have htarget := canHold_target hmode outDir
  refine ⟨report, later, hrun, hprocessed, hwritten, nodup_namesAt, ?_, ?_, ?_⟩
  · rw [hwritten]
    exact nodup_flatMap_join_iff hmode outDir done
  · intro before file after hsplit hlast
    have houtput : ∀ other ∈ written, IsOutput (Path.join outDir mode.folder) other.1 :=
      fun other => isOutput_of_mem_journal
    have hjournal : journal parse mode outDir root session.store (session.store.discover path) =
        before ++ file :: after := hsplit
    rw [hsplit] at houtput
    rw [hjournal] at hrecords
    exact Store.find?_of_records htarget houtput hrecords hlast
  · intro hdisjoint
    exact Store.find?_of_records_of_nodup htarget (fun file => isOutput_of_mem_journal) hrecords
      (nodup_paths_journal hmode outDir hdisjoint)

/-- Two turns that are done, one after the other, have written what each has. -/
theorem turns_of_two_done {parse : Parser} {mode : Mode} {outDir root first second : String}
    {files between after : Store} {written written' : List (String × FileContent)}
    (hfirst : turn parse mode outDir root files first = ⟨written, none, between⟩)
    (hsecond : turn parse mode outDir root between second = ⟨written', none, after⟩) :
    turns parse mode outDir root files [first, second] =
        [(first, files), (second, between)] ∧
      [(first, files), (second, between)].filter (isDone parse mode outDir root) =
        [(first, files), (second, between)] ∧
      [(first, files), (second, between)].flatMap (writtenIn parse mode outDir root) =
        written ++ written' := by
  refine ⟨turns_pair hfirst second, List.filter_eq_self.mpr fun turn hturn => ?_, ?_⟩
  · rcases List.mem_pair.mp hturn with rfl | rfl
    · rw [isDone, hfirst]
      rfl
    · rw [isDone, hsecond]
      rfl
  · rw [List.flatMap_cons, List.flatMap_cons, List.flatMap_nil, List.append_nil, writtenIn_mk,
      writtenIn_mk, hfirst, hsecond]

/-- Two source files of different names in one directory. -/
def twoSources : Session :=
  ⟨⟨"/", [(["s"], .directory), (["out"], .directory), (["out", "class_screenshots"], .directory),
      (["s", "A.java"], .file (.text "class A \x7b\x7d\n")),
      (["s", "B.java"], .file (.text "class B \x7b\x7d\n"))]⟩, [], false⟩

/-- What is shown of the first and of the second. -/
def firstOfTwo : Artifact :=
  ⟨"A.java", ["A.java", "class A \x7b\x7d"]⟩

def secondOfTwo : Artifact :=
  ⟨"B.java", ["B.java", "class B \x7b\x7d"]⟩

/-- What becomes of them. -/
def documentOf (artifact : Artifact) : String × FileContent :=
  (artifact.label ++ ".docx", .document ⟨artifact.label, artifact.lines⟩)

/-- The files when the second has its turn. -/
def afterFirstOfTwo : Store :=
  twoSources.store.insertIn ["out", "class_screenshots"] [documentOf firstOfTwo]

/-- What the two turns examine. -/
theorem examine_twoSources :
    examine Java.parse .classes twoSources.store "s/A.java" = .ok [firstOfTwo] ∧
      examine Java.parse .classes afterFirstOfTwo "s/B.java" = .ok [secondOfTwo] := by
  decide

/-- The turns put their documents into the folder. -/
theorem turn_twoSources :
    turn Java.parse .classes "out" "s" twoSources.store "s/A.java" =
        ⟨[documentOf firstOfTwo].map fun file =>
          (Path.join (Path.join "out" Mode.classes.folder) file.1, file.2), none,
          afterFirstOfTwo⟩ ∧
      turn Java.parse .classes "out" "s" afterFirstOfTwo "s/B.java" =
        ⟨[documentOf secondOfTwo].map fun file =>
          (Path.join (Path.join "out" Mode.classes.folder) file.1, file.2), none,
          afterFirstOfTwo.insertIn ["out", "class_screenshots"] [documentOf secondOfTwo]⟩ := by
  have hfolder : twoSources.store.DirectoryAt (Path.join "out" Mode.classes.folder)
      ["out", "class_screenshots"] :=
    ⟨by decide, by decide⟩
  have hstays : afterFirstOfTwo.DirectoryAt (Path.join "out" Mode.classes.folder)
      ["out", "class_screenshots"] :=
    ⟨by decide, by decide⟩
  exact ⟨turn_of_takes examine_twoSources.1 (by decide) (List.cons_ne_nil _ _)
      hfolder.makeDirectories hfolder (by decide),
    turn_of_takes examine_twoSources.2 (by decide) (List.cons_ne_nil _ _)
      hstays.makeDirectories hstays (by decide)⟩

theorem namesAt_twoSources :
    namesAt Java.parse .classes "s" ("s/A.java", twoSources.store) = ["A.java.docx"] ∧
      namesAt Java.parse .classes "s" ("s/B.java", afterFirstOfTwo) = ["B.java.docx"] := by
  rw [namesAt, namesAt, examine_twoSources.1, examine_twoSources.2]
  decide

/-- Their names are different, so no path is written twice and both documents stay. -/
theorem written_twoSources :
    Mode.classes ≠ .table ∧
      ∃ report later,
        (inMode Java.parse "s" .classes "out" none).run twoSources = (.ok report, later) ∧
        report.processed = ["s/A.java", "s/B.java"] ∧
        report.written =
          ["out/class_screenshots/A.java.docx", "out/class_screenshots/B.java.docx"] ∧
        report.written.Nodup ∧
        later.store.find? "out/class_screenshots/A.java.docx" =
          some (.file (.document ⟨"A.java", ["A.java", "class A \x7b\x7d"]⟩)) ∧
        later.store.find? "out/class_screenshots/B.java.docx" =
          some (.file (.document ⟨"B.java", ["B.java", "class B \x7b\x7d"]⟩)) := by
  have hmode : Mode.classes ≠ .table := by decide
  have hroot : rootOf twoSources.store "s" = "s" := by decide
  have hdiscover : twoSources.store.discover "s" = ["s/A.java", "s/B.java"] :=
    Store.discover_of_directory rfl rfl (by decide) (by decide)
  obtain ⟨hfirstNames, hsecondNames⟩ := namesAt_twoSources
  obtain ⟨report, later, hrun, hprocessed, hwritten, _, hnodup, _, hholds⟩ :=
    inMode_nodup_written_iff Java.parse "s" "out" none twoSources hmode
  obtain ⟨hturns, hdone, hjournal⟩ := turns_of_two_done turn_twoSources.1 turn_twoSources.2
  rw [hroot, hdiscover, hturns] at hprocessed hwritten hnodup hholds
  have hdisjoint : [("s/A.java", twoSources.store), ("s/B.java", afterFirstOfTwo)].Pairwise
      fun first second => (namesAt Java.parse .classes "s" first).Disjoint
        (namesAt Java.parse .classes "s" second) := by
    rw [List.pairwise_pair, hfirstNames, hsecondNames]
    simp
  have hfiles := hjournal.trans (show _ =
      [("out/class_screenshots/A.java.docx", .document ⟨firstOfTwo.label, firstOfTwo.lines⟩),
        ("out/class_screenshots/B.java.docx",
          .document ⟨secondOfTwo.label, secondOfTwo.lines⟩)] by decide)
  have hheld := hholds hdisjoint
  rw [hfiles] at hheld
  rw [hdone] at hprocessed hwritten hnodup
  refine ⟨hmode, report, later, hrun, hprocessed, ?_, hnodup.mpr hdisjoint,
    hheld (_, _) List.mem_cons_self,
    hheld (_, _) (List.mem_cons_of_mem _ List.mem_cons_self)⟩
  rw [hwritten]
  simp only [List.flatMap_cons, List.flatMap_nil, hfirstNames, hsecondNames]
  decide

/-- Two source files of one name in two directories. -/
def sameNameTwice : Session :=
  ⟨⟨"/", [(["s"], .directory), (["s", "a"], .directory), (["s", "b"], .directory),
      (["s", "a", "A.java"], .file (.text "class A \x7b\n\x7d\n")),
      (["s", "b", "A.java"], .file (.text "class A \x7b\n  int n;\n\x7d\n"))]⟩,
    [], false⟩

/-- The files once the folder of the documents is made. -/
def besideSameName : Store :=
  (sameNameTwice.store.insert ["out"] .directory).insert ["out", "class_screenshots"] .directory

/-- What is shown of the first and of the second. -/
def firstOfSame : Artifact :=
  ⟨"A.java", ["A.java", "class A \x7b", "\x7d"]⟩

def secondOfSame : Artifact :=
  ⟨"A.java", ["A.java", "class A \x7b", "  int n;", "\x7d"]⟩

/-- The files when the second has its turn. -/
def afterFirstOfSame : Store :=
  besideSameName.insertIn ["out", "class_screenshots"] [documentOf firstOfSame]

theorem examine_sameNameTwice :
    examine Java.parse .classes sameNameTwice.store "s/a/A.java" = .ok [firstOfSame] ∧
      examine Java.parse .classes afterFirstOfSame "s/b/A.java" = .ok [secondOfSame] := by
  decide

/-- Both turns put a document of one name into the folder. -/
theorem turn_sameNameTwice :
    turn Java.parse .classes "out" "s" sameNameTwice.store "s/a/A.java" =
        ⟨[documentOf firstOfSame].map fun file =>
          (Path.join (Path.join "out" Mode.classes.folder) file.1, file.2), none,
          afterFirstOfSame⟩ ∧
      turn Java.parse .classes "out" "s" afterFirstOfSame "s/b/A.java" =
        ⟨[documentOf secondOfSame].map fun file =>
          (Path.join (Path.join "out" Mode.classes.folder) file.1, file.2), none,
          afterFirstOfSame.insertIn ["out", "class_screenshots"] [documentOf secondOfSame]⟩ := by
  have hfolder : besideSameName.DirectoryAt (Path.join "out" Mode.classes.folder)
      ["out", "class_screenshots"] :=
    ⟨by decide, by decide⟩
  have hstays : afterFirstOfSame.DirectoryAt (Path.join "out" Mode.classes.folder)
      ["out", "class_screenshots"] :=
    ⟨by decide, by decide⟩
  exact ⟨turn_of_takes examine_sameNameTwice.1 (by decide) (List.cons_ne_nil _ _)
      (by decide +kernel) hfolder (by decide),
    turn_of_takes examine_sameNameTwice.2 (by decide) (List.cons_ne_nil _ _)
      hstays.makeDirectories hstays (by decide)⟩

/-- Their documents have one path, which the report lists twice. -/
theorem written_sameNameTwice :
    ∃ report later,
      (inMode Java.parse "s" .classes "out" none).run sameNameTwice = (.ok report, later) ∧
      report.written =
        ["out/class_screenshots/A.java.docx", "out/class_screenshots/A.java.docx"] ∧
      ¬ report.written.Nodup := by
  have hmode : Mode.classes ≠ .table := by decide
  have hroot : rootOf sameNameTwice.store "s" = "s" := by decide
  have hdiscover : sameNameTwice.store.discover "s" = ["s/a/A.java", "s/b/A.java"] :=
    Store.discover_of_directory rfl rfl (by decide) (by decide)
  obtain ⟨report, later, hrun, _, _, _, hreported⟩ :=
    exists_run_inMode Java.parse hmode "s" "out" none sameNameTwice
  obtain ⟨hturns, hdone, hjournal⟩ := turns_of_two_done turn_sameNameTwice.1 turn_sameNameTwice.2
  rw [hroot, hdiscover, hturns, hdone, ← List.map_flatMap, hjournal] at hreported
  have hwritten : report.written =
      ["out/class_screenshots/A.java.docx", "out/class_screenshots/A.java.docx"] :=
    hreported.trans (by decide)
  exact ⟨report, later, hrun, hwritten, by rw [hwritten]; decide⟩

end Run
end JavaSketch
