import JavaSketch.Java.Reader
import JavaSketch.Proofs.Outputs
import JavaSketch.Proofs.Reports

/-!
# Broken sources

A source file is broken if it cannot be read, parsed or converted.  Its turn leaves
no trace but a failure in the report, so leaving it out of a run changes nothing
else.

**Argument.**  The turn of a broken source gives the files back as they were, so the
turns after it find the same files with it and without it.  The report lists what
each turn gave; what the broken sources gave are failures.

**Results.**
* `isBroken_iff`: a source that is there is broken or not before the run begins.
* `ofSources_filter_broken`: what a run gives without some of its broken sources.
-/

namespace JavaSketch

open Syntax (Parser)

namespace Report

/-- A report without what it says about the failures of some paths. -/
def without (report : Report) (removed : List String) : Report :=
  { report with failed := report.failed.filter (·.1 ∉ removed) }

end Report

namespace Run

variable {parse : Parser} {mode : Mode} {outDir root : String} {files : Store}
  {sources : List String}

/-- Whether a source file of a run cannot be read, parsed or converted when its turn
comes. -/
def IsBroken (parse : Parser) (mode : Mode) (outDir root : String) (files : Store)
    (sources : List String) (source : String) : Prop :=
  ∃ before failure, (source, before) ∈ turns parse mode outDir root files sources ∧
    examine parse mode before source = .error failure

theorem exists_eq_error_iff {α : Type} {value : Except Failure α} :
    (∃ failure, value = .error failure) ↔ ∀ given, value ≠ .ok given := by
  cases value <;> simp

/-- A source file that is there is broken or not before the run begins. -/
theorem isBroken_iff {source : String} {place : Place} (hsource : isSourcePath source)
    (hplace : files.resolve source = .ok place) :
    IsBroken parse mode outDir root files sources source ↔
      source ∈ sources ∧ ∃ failure, examine parse mode files source = .error failure := by
  have hexamine : ∀ before, (source, before) ∈ turns parse mode outDir root files sources →
      ((∃ failure, examine parse mode before source = .error failure) ↔
        ∃ failure, examine parse mode files source = .error failure) := by
    intro before hturn
    simp only [exists_eq_error_iff, ne_eq,
      examine_eq_ok_iff_of_spares (spares_of_mem_turns hturn) hsource hplace]
  constructor
  · rintro ⟨before, failure, hturn, hfailure⟩
    refine ⟨?_, (hexamine before hturn).mp ⟨failure, hfailure⟩⟩
    have hmem : source ∈ (turns parse mode outDir root files sources).map (·.1) :=
      List.mem_map_of_mem hturn
    rwa [turns, Batch.map_fst_turns] at hmem
  · rintro ⟨hmem, hfailure⟩
    have hturns : source ∈ (turns parse mode outDir root files sources).map (·.1) := by
      rwa [turns, Batch.map_fst_turns]
    obtain ⟨⟨_, before⟩, hturn, rfl⟩ := List.mem_map.mp hturns
    obtain ⟨failure, hbefore⟩ := (hexamine before hturn).mpr hfailure
    exact ⟨before, failure, hturn, hbefore⟩

theorem turnEffect_of_examine_eq_error {source : String} {failure : Failure}
    (h : examine parse mode files source = .error failure) :
    turnEffect parse mode outDir root source files = (.error failure, files) := by
  rw [turnEffect, turn, h]
  rfl

theorem examine_table (source : String) :
    examine parse .table files source = (unitAt parse files source).map fun _ => [] := by
  unfold examine
  cases unitAt parse files source <;> rfl

theorem summaryEffect_of_examine_eq_error {source : String} {failure : Failure}
    (h : examine parse .table files source = .error failure) :
    summaryEffect parse source files = (.error failure, files) := by
  rw [examine_table] at h
  unfold summaryEffect Effect.reading
  cases hunit : unitAt parse files source with
  | ok unit => simp [hunit, Except.map] at h
  | error other => simpa [hunit, Except.map] using h

/-- Turns that make a table find the files as those that only summarize. -/
theorem turns_table :
    turns parse .table outDir root files sources =
      Batch.turns (summaryEffect parse) files sources := by
  have hturn : turnEffect parse .table outDir root = fun source =>
      .reading fun files => (unitAt parse files source).map fun _ => [] := by
    funext source files
    unfold turnEffect turn
    simp only [examine_table, Effect.reading]
    cases unitAt parse files source <;> rfl
  unfold turns summaryEffect
  rw [hturn, Batch.turns_reading, Batch.turns_reading]

section Removed

variable {removed : List String}

/-- The turn of a source that is left out gave nothing but a failure. -/
theorem exists_failure_of_removed {α : Type} {effect : String → Effect α}
    (hnodup : sources.Nodup)
    (hturns : turns parse mode outDir root files sources = Batch.turns effect files sources)
    (heffect : ∀ {source before failure}, examine parse mode before source = .error failure →
      effect source before = (.error failure, before))
    (hremoved : ∀ source ∈ removed, IsBroken parse mode outDir root files sources source) :
    ∀ turn ∈ Batch.turns effect files sources, decide (turn.1 ∉ removed) = false →
      ∃ failure, effect turn.1 turn.2 = (.error failure, turn.2) := by
  intro turn hturn hkeep
  obtain ⟨before, failure, hbefore, hfailure⟩ := hremoved turn.1 (by simpa using hkeep)
  rw [hturns] at hbefore
  obtain rfl : before = turn.2 := Batch.eq_of_mem_turns hnodup hbefore hturn
  exact ⟨failure, heffect hfailure⟩

/-- Broken sources can be left out of a run: the files become the same, and the
report says the same about the others. -/
theorem ofSources_filter (tablePath : String) (session : Session) (hnodup : sources.Nodup)
    (hremoved : ∀ source ∈ removed,
      IsBroken parse mode outDir root session.store sources source) :
    let full := (ofSources parse mode outDir root tablePath sources).run session
    let rest := (ofSources parse mode outDir root tablePath
      (sources.filter (· ∉ removed))).run session
    (rest.1, rest.2.store) = (full.1.map (·.without removed), full.2.store) := by
  intro full rest
  have hpair : (full.1.map (·.without removed), full.2.store) =
      (fun given : Except Failure Report × Store => (given.1.map (·.without removed), given.2))
        (full.1, full.2.store) := rfl
  rw [hpair]
  -- the table is one file made of all summaries, so it is not written in the turns
  by_cases hmode : mode = .table
  · subst hmode
    obtain ⟨_, hvalues, hreport⟩ := Batch.outcomes_filter (· ∉ removed) hnodup
      (exists_failure_of_removed hnodup turns_table summaryEffect_of_examine_eq_error hremoved)
    rw [actsAs_ofSources_table parse outDir root tablePath sources session,
      actsAs_ofSources_table parse outDir root tablePath (sources.filter (· ∉ removed)) session]
    simp only [summaryOutcomes, hvalues, hreport, Progress.map_give, Report.without]
  · obtain ⟨hfiles, hvalues, hreport⟩ := Batch.outcomes_filter (· ∉ removed) hnodup
      (exists_failure_of_removed hnodup rfl turnEffect_of_examine_eq_error hremoved)
    rw [actsAs_ofSources parse mode outDir root tablePath sources hmode session,
      actsAs_ofSources parse mode outDir root tablePath (sources.filter (· ∉ removed)) hmode
        session]
    simp only [outcomes, turns, filesAfter, hvalues, hreport, hfiles, Except.map, Report.without]

end Removed

/-- A run that reports something reports each source once, and each broken one as
failed. -/
theorem report_of_ofSources_eq_ok {tablePath : String} {session : Session} {report : Report}
    (hnodup : sources.Nodup)
    (h : ((ofSources parse mode outDir root tablePath sources).run session).1 = .ok report) :
    (report.processed ++ report.failed.map (·.1)).Perm sources ∧
      ∀ source before failure,
        (source, before) ∈ turns parse mode outDir root session.store sources →
        examine parse mode before source = .error failure →
        (source, failure.message) ∈ report.failed := by
  by_cases hmode : mode = .table
  · subst hmode
    have hgiven := congrArg Prod.fst
      (actsAs_ofSources_table parse outDir root tablePath sources session)
    rw [h] at hgiven
    obtain rfl := Progress.eq_of_give_eq_ok hgiven.symm
    refine ⟨?_, fun source before failure hturn hfailure => ?_⟩
    · exact Batch.perm_turns hnodup _
    · rw [turns_table] at hturn
      exact Batch.mem_failed_of_mem_turns hnodup hturn
        (congrArg Prod.fst (summaryEffect_of_examine_eq_error hfailure)) _
  · have hgiven := congrArg Prod.fst
      (actsAs_ofSources parse mode outDir root tablePath sources hmode session)
    rw [h] at hgiven
    obtain rfl := Except.ok.inj hgiven
    refine ⟨Batch.perm_turns hnodup _, fun source before failure hturn hfailure => ?_⟩
    exact Batch.mem_failed_of_mem_turns hnodup hturn
      (congrArg Prod.fst (turnEffect_of_examine_eq_error hfailure)) _

/-- **Broken sources do not matter to the others.**  Without some of its broken
sources a run leaves the same files and reports the same but for their failures.
With them it reports each source once, and each broken one as failed; whether a
source that is there is broken was settled before the run. -/
theorem ofSources_filter_broken (parse : Parser) (mode : Mode)
    (outDir root tablePath : String) (session : Session) {sources removed : List String}
    (hnodup : sources.Nodup)
    (hremoved : ∀ source ∈ removed,
      IsBroken parse mode outDir root session.store sources source) :
    let full := (ofSources parse mode outDir root tablePath sources).run session
    let rest := (ofSources parse mode outDir root tablePath
      (sources.filter (· ∉ removed))).run session
    rest.2.store = full.2.store ∧
      rest.1 = full.1.map (·.without removed) ∧
      (mode ≠ .table → ∃ report, full.1 = .ok report) ∧
      (∀ report, full.1 = .ok report →
        (report.processed ++ report.failed.map (·.1)).Perm sources ∧
          ∀ source before failure,
            (source, before) ∈ turns parse mode outDir root session.store sources →
            examine parse mode before source = .error failure →
            (source, failure.message) ∈ report.failed) ∧
      ∀ source place, isSourcePath source → session.store.resolve source = .ok place →
        (IsBroken parse mode outDir root session.store sources source ↔
          source ∈ sources ∧
            ∃ failure, examine parse mode session.store source = .error failure) := by
  intro full rest
  have hrest := ofSources_filter tablePath session hnodup hremoved
  refine ⟨congrArg Prod.snd hrest, congrArg Prod.fst hrest, fun hmode => ?_,
    fun report hreport => report_of_ofSources_eq_ok hnodup hreport,
    fun source place hsource hplace => isBroken_iff hsource hplace⟩
  exact ⟨_, congrArg Prod.fst
    (actsAs_ofSources parse mode outDir root tablePath sources hmode session)⟩

/-- A source file with a syntax error between two others. -/
def brokenBetween : Session :=
  ⟨⟨"/", [(["out"], .directory), (["out", "pseudocode"], .directory),
      (["A.java"], .file (.text "class A \x7bint n;void f()\x7b\x7d\x7d")),
      (["B.java"], .file (.text "class B \x7b")),
      (["C.java"], .file (.text "class C \x7bint m;void g()\x7b\x7d\x7d"))]⟩, [], false⟩

/-- The three source files. -/
def threeSources : List String :=
  ["A.java", "B.java", "C.java"]

/-- The files that a source file with one method on its one line becomes. -/
def outputsOf (label document index source : String) : List (String × FileContent) :=
  [(document, .document ⟨label, ["endprocedure"]⟩),
    (index, .text (Artifact.index [⟨label, ["endprocedure"]⟩] source).write)]

/-- The files after the turn of the first source. -/
def filesAtBroken : Store :=
  brokenBetween.store.insertIn ["out", "pseudocode"] (outputsOf "A f" "A f.docx" "A.json" "A.java")

/-- The files after the turn of the last source. -/
def filesBehindBroken : Store :=
  filesAtBroken.insertIn ["out", "pseudocode"] (outputsOf "C g" "C g.docx" "C.json" "C.java")

/-- What is written for such a source file, as it is put into its folder. -/
theorem turn_of_outputs {files : Store} {label document stem index source : String}
    (hexamine : examine Java.parse .pseudocode files source = .ok [⟨label, ["endprocedure"]⟩])
    (hdocument : Artifact.documentSteps [⟨label, ["endprocedure"]⟩]
        (Path.join "out" pseudocodeFolder) =
      [(document, FileContent.document ⟨label, ["endprocedure"]⟩)].map fun file =>
        .ok (Path.join (Path.join "out" pseudocodeFolder) file.1, file.2))
    (hname : moduleName files.workingDir source "" = .ok stem)
    (hindex : Artifact.indexName source stem ++ ".json" = index)
    (hfolder : files.DirectoryAt (Path.join "out" Mode.pseudocode.folder) ["out", "pseudocode"])
    (hnames : files.Takes ["out", "pseudocode"] document ∧
      files.Takes ["out", "pseudocode"] index) :
    turn Java.parse .pseudocode "out" "" files source =
      ⟨(outputsOf label document index source).map fun file =>
          (Path.join (Path.join "out" Mode.pseudocode.folder) file.1, file.2), none,
        files.insertIn ["out", "pseudocode"] (outputsOf label document index source)⟩ := by
  have hsteps := steps_pseudocode (List.cons_ne_nil _ _) hdocument hname
  rw [hindex] at hsteps
  refine turn_of_takes hexamine hsteps (List.cons_ne_nil _ _) hfolder.makeDirectories hfolder
    fun file hfile => ?_
  rcases List.mem_pair.mp hfile with rfl | rfl
  · exact hnames.1
  · exact hnames.2

theorem examine_besideBroken :
    examine Java.parse .pseudocode brokenBetween.store "A.java" =
        .ok [⟨"A f", ["endprocedure"]⟩] ∧
      examine Java.parse .pseudocode filesAtBroken "C.java" = .ok [⟨"C g", ["endprocedure"]⟩] := by
  decide +kernel

theorem turn_besideBroken :
    turn Java.parse .pseudocode "out" "" brokenBetween.store "A.java" =
        ⟨(outputsOf "A f" "A f.docx" "A.json" "A.java").map fun file =>
          (Path.join (Path.join "out" Mode.pseudocode.folder) file.1, file.2), none,
          filesAtBroken⟩ ∧
      turn Java.parse .pseudocode "out" "" filesAtBroken "C.java" =
        ⟨(outputsOf "C g" "C g.docx" "C.json" "C.java").map fun file =>
          (Path.join (Path.join "out" Mode.pseudocode.folder) file.1, file.2), none,
          filesBehindBroken⟩ := by
  have hfirst : moduleName brokenBetween.store.workingDir "A.java" "" = .ok "A" := by
    decide
  have hlast : moduleName filesAtBroken.workingDir "C.java" "" = .ok "C" := by
    decide
  exact ⟨turn_of_outputs examine_besideBroken.1 (by decide) hfirst (by decide)
      ⟨by decide, by decide⟩ (by decide),
    turn_of_outputs examine_besideBroken.2 (by decide) hlast (by decide)
      ⟨by decide, by decide⟩ (by decide)⟩

/-- A run over two sources whose turns are done reports both and what they wrote. -/
theorem ofSources_of_two_done {parse : Parser} {mode : Mode} {outDir root first second : String}
    {session : Session} {between after : Store} {written written' : List (String × FileContent)}
    (hmode : mode ≠ .table) (tablePath : String)
    (hfirst : turn parse mode outDir root session.store first = ⟨written, none, between⟩)
    (hsecond : turn parse mode outDir root between second = ⟨written', none, after⟩) :
    (((ofSources parse mode outDir root tablePath [first, second]).run session).1,
        ((ofSources parse mode outDir root tablePath [first, second]).run session).2.store) =
      (.ok ⟨[first, second], [], (written ++ written').map (·.1)⟩, after) := by
  have hfirstEffect := turnEffect_of_turn_eq _ _ _ _ hfirst
  have hsecondEffect := turnEffect_of_turn_eq _ _ _ _ hsecond
  have houtcomes : outcomes parse mode outDir root session.store [first, second] =
      [⟨first, .ok (written.map (·.1))⟩, ⟨second, .ok (written'.map (·.1))⟩] := by
    rw [outcomes, turns_pair hfirst, List.map_cons, List.map_singleton, Batch.outcomeOf,
      Batch.outcomeOf, hfirstEffect, hsecondEffect]
    rfl
  have hfiles : filesAfter parse mode outDir root session.store [first, second] = after := by
    rw [filesAfter, Batch.filesAfter, List.foldl_cons, List.foldl_cons, List.foldl_nil,
      hfirstEffect]
    exact congrArg Prod.snd hsecondEffect
  have hgiven := actsAs_ofSources parse mode outDir root tablePath [first, second] hmode session
  beta_reduce at hgiven
  rw [houtcomes, hfiles] at hgiven
  rw [hgiven]
  simp [Batch.report, Batch.values, Batch.failures, Outcome.value?, Outcome.failureMessage?,
    Except.toOption]

/-- A run over some of the three sources. -/
def runOver (mode : Mode) (sources : List String) : Except Failure Report × Session :=
  (ofSources Java.parse mode "out" "" "out/variables.csv" sources).run brokenBetween

/-- Without the broken source the others become documents and indexes. -/
theorem runOver_besideBroken :
    ((runOver .pseudocode ["A.java", "C.java"]).1,
        (runOver .pseudocode ["A.java", "C.java"]).2.store) =
      (.ok ⟨["A.java", "C.java"], [], ["out/pseudocode/A f.docx", "out/pseudocode/A.json",
        "out/pseudocode/C g.docx", "out/pseudocode/C.json"]⟩, filesBehindBroken) := by
  rw [runOver, ofSources_of_two_done (by decide) _ turn_besideBroken.1 turn_besideBroken.2]
  have hpaths : (((outputsOf "A f" "A f.docx" "A.json" "A.java").map fun file =>
        (Path.join (Path.join "out" Mode.pseudocode.folder) file.1, file.2)) ++
      (outputsOf "C g" "C g.docx" "C.json" "C.java").map fun file =>
        (Path.join (Path.join "out" Mode.pseudocode.folder) file.1, file.2)).map (·.1) =
      ["out/pseudocode/A f.docx", "out/pseudocode/A.json", "out/pseudocode/C g.docx",
        "out/pseudocode/C.json"] := by
    decide
  rw [hpaths]

/-- The table of their variables. -/
def besideBrokenTable : String :=
  "A\r\nName,Data type,Scope,Purpose\r\nn,int,Private Non-static Non-final,\r\n" ++
    "C\r\nName,Data type,Scope,Purpose\r\nm,int,Private Non-static Non-final,\r\n"

/-- Without the broken source the others become that table. -/
theorem runOver_besideBroken_table :
    ((runOver .table ["A.java", "C.java"]).1, (runOver .table ["A.java", "C.java"]).2.store) =
      (.ok ⟨["A.java", "C.java"], [], ["out/variables.csv"]⟩,
        brokenBetween.store.insert ["out", "variables.csv"]
          (.file (.text besideBrokenTable))) := by
  decide +kernel

theorem isBroken_brokenBetween {mode : Mode} (hmode : mode ≠ .classes) :
    ∀ source ∈ ["B.java"],
      IsBroken Java.parse mode "out" "" brokenBetween.store threeSources source := by
  intro source hsource
  obtain rfl := List.mem_singleton.mp hsource
  have hplace : brokenBetween.store.resolve "B.java" = .ok ["B.java"] := by decide
  have hunit : (unitAt Java.parse brokenBetween.store "B.java").toOption.isNone := by
    decide +kernel
  refine (isBroken_iff (by decide) hplace).mpr ⟨by decide, ?_⟩
  cases hread : unitAt Java.parse brokenBetween.store "B.java" with
  | ok unit => simp [hread, Except.toOption] at hunit
  | error failure =>
      refine ⟨failure, ?_⟩
      cases mode with
      | pseudocode | table => rw [examine, hread]; rfl
      | classes => exact absurd rfl hmode

/-- With a syntax error between them two sources come to the documents and indexes, and
to the table, that they come to alone. -/
theorem ofSources_brokenBetween :
    threeSources.Nodup ∧
      (∀ mode ≠ Mode.classes, ∀ source ∈ ["B.java"],
        IsBroken Java.parse mode "out" "" brokenBetween.store threeSources source) ∧
      (∃ report later, runOver .pseudocode threeSources = (.ok report, later) ∧
        report.processed = ["A.java", "C.java"] ∧ report.failed.map (·.1) = ["B.java"] ∧
        report.written = ["out/pseudocode/A f.docx", "out/pseudocode/A.json",
          "out/pseudocode/C g.docx", "out/pseudocode/C.json"] ∧
        later.store = filesBehindBroken) ∧
      ∃ report later, runOver .table threeSources = (.ok report, later) ∧
        report.processed = ["A.java", "C.java"] ∧ report.failed.map (·.1) = ["B.java"] ∧
        report.written = ["out/variables.csv"] ∧
        later.store = brokenBetween.store.insert ["out", "variables.csv"]
          (.file (.text besideBrokenTable)) := by
  have hnodup : threeSources.Nodup := by decide
  have hbroken := fun mode (hmode : mode ≠ Mode.classes) => isBroken_brokenBetween hmode
  have hfilter : threeSources.filter (· ∉ ["B.java"]) = ["A.java", "C.java"] := by decide
  -- what the other two give alone is what all three give, but for the failure
  have hgives : ∀ mode ≠ Mode.classes, ∀ written files,
      (runOver mode ["A.java", "C.java"]).1 = .ok ⟨["A.java", "C.java"], [], written⟩ →
      (runOver mode ["A.java", "C.java"]).2.store = files →
      ∃ report later, runOver mode threeSources = (.ok report, later) ∧
        report.processed = ["A.java", "C.java"] ∧ report.failed.map (·.1) = ["B.java"] ∧
        report.written = written ∧ later.store = files := by
    intro mode hmode written files hrest hrestFiles
    obtain ⟨hstore, hgiven, _, htold, _⟩ := ofSources_filter_broken Java.parse mode "out" ""
      "out/variables.csv" brokenBetween hnodup (hbroken mode hmode)
    rw [hfilter, ← runOver, ← runOver] at hstore hgiven
    rw [← runOver] at htold
    obtain ⟨report, hreport, hwithout⟩ := exists_of_map_eq_ok (hgiven.symm.trans hrest)
    obtain ⟨hprocessed, _, hwritten⟩ := Report.mk.inj hwithout
    have hperm := (htold report hreport).1
    rw [← hprocessed] at hperm
    refine ⟨report, _, Prod.ext hreport rfl, hprocessed.symm, ?_, hwritten.symm,
      hstore.symm.trans hrestFiles⟩
    have hothers : (["A.java", "C.java"] ++ ["B.java"]).Perm threeSources := by decide
    exact List.perm_singleton.mp
      ((List.perm_append_left_iff _).mp (hperm.trans hothers.symm))
  obtain ⟨hpseudocode, hpseudocodeFiles⟩ := Prod.mk.inj runOver_besideBroken
  obtain ⟨htable, htableFiles⟩ := Prod.mk.inj runOver_besideBroken_table
  exact ⟨hnodup, hbroken, hgives .pseudocode (by decide) _ _ hpseudocode hpseudocodeFiles,
    hgives .table (by decide) _ _ htable htableFiles⟩

end Run
end JavaSketch
