import JavaSketch.Proofs.DocumentsAndIndex
import JavaSketch.Proofs.Folders
import Mathlib.Data.List.TakeWhile

/-!
# The documents in a folder

One call writes the documents of some artifacts into one folder.  Each gets the first
free name for its label, so that no document replaces another of the call, and each lies
in the folder itself.  The call stops at the first label that cannot be a heading and at
nothing else, as long as the files take the names.

**Argument.**  Once the folder is there, every document is put at its own place in it,
which leaves the folder and the other places as they are; so what one artifact needs to be
written still holds for the next.

**Results.**
* `carryOut_documents`: how far the documents of some artifacts are written.
* `writeDocuments_in_folder`: the names, the outcome and the files of one call.
-/

namespace JavaSketch

open JavaSketch.Action (ActsAs)

namespace Artifact

/-- Whether the label of an artifact can be a heading: it holds no character below the
space but the tab, the line feed and the carriage return, and none of the last two of the
first plane. -/
def isPrintable (artifact : Artifact) : Bool :=
  artifact.label.toList.all fun c => !decide
    (c.toNat ≤ 0x08 ∨ c.toNat = 0x0B ∨ c.toNat = 0x0C ∨ (0x0E ≤ c.toNat ∧ c.toNat ≤ 0x1F) ∨
      c.toNat = 0xFFFE ∨ c.toNat = 0xFFFF)

/-- The names of the documents of some artifacts. -/
def namesFor (artifacts : List Artifact) : List String :=
  documentNames (artifacts.map (·.label))

/-- The artifacts whose documents are written, with the names of these. -/
def writtenPairs (artifacts : List Artifact) : List (Artifact × String) :=
  (artifacts.zip (namesFor artifacts)).takeWhile (·.1.isPrintable)

theorem isPrintable_eq (artifact : Artifact) :
    artifact.isPrintable = !artifact.label.toList.any Document.isForbidden := by
  have hforbidden : ∀ c : Char, Document.isForbidden c = decide
      (c.toNat ≤ 0x08 ∨ c.toNat = 0x0B ∨ c.toNat = 0x0C ∨ (0x0E ≤ c.toNat ∧ c.toNat ≤ 0x1F) ∨
        c.toNat = 0xFFFE ∨ c.toNat = 0xFFFF) := by
    intro c
    rw [Bool.eq_iff_iff]
    simp only [Document.isForbidden, Bool.or_eq_true, Bool.and_eq_true, decide_eq_true_eq,
      beq_iff_eq]
    omega
  rw [isPrintable, List.not_any_eq_all_not]
  simp only [hforbidden]

/-- A document shows its artifact, unless the label cannot be a heading. -/
theorem step_eq (artifact : Artifact) (path : String) :
    artifact.step path =
      if artifact.isPrintable then
        .ok (path, .document (.showing artifact.label artifact.lines))
      else .error .unprintableText := by
  rw [step, document, isPrintable_eq, Document.ofLines_eq_showing]
  cases artifact.label.toList.any Document.isForbidden <;> rfl

end Artifact

namespace Store

variable {files : Store} {folder name : String} {place : Place}

/-- Whether the files take documents of some names in a folder: the folder can be made, no
name is too long, and none is that of a directory in the folder. -/
structure Accepts (files widened : Store) (folder : String) (names : List String) : Prop where
  made : files.makeDirectories folder = .ok widened
  isDirectory : widened.isDirectory folder
  short : ∀ name ∈ names, (name ++ ".docx").utf8ByteSize ≤ longestName
  free : ∀ name ∈ names,
    widened.find? (Artifact.documentPath folder name) ≠ some .directory

/-- Documents are written in order up to the first whose label cannot be a heading. -/
theorem carryOut_documents (h : files.DirectoryAt folder place)
    (pairs : List (Artifact × String))
    (hnames : ∀ pair ∈ pairs, files.Takes place (pair.2 ++ ".docx")) :
    (files.carryOut (pairs.map fun pair =>
        pair.1.step (Artifact.documentPath folder pair.2))).failure =
      (if pairs.all (·.1.isPrintable) then none else some .unprintableText) ∧
    (files.carryOut (pairs.map fun pair =>
        pair.1.step (Artifact.documentPath folder pair.2))).written =
      (pairs.takeWhile (·.1.isPrintable)).map fun pair =>
        (Artifact.documentPath folder pair.2,
          .document (.showing pair.1.label pair.1.lines)) := by
  induction pairs generalizing files with
  | nil => exact ⟨rfl, rfl⟩
  | cons pair rest ih =>
      rw [List.map_cons, Artifact.step_eq, List.all_cons, List.takeWhile_cons]
      cases hprintable : pair.1.isPrintable with
      | false => exact ⟨rfl, rfl⟩
      | true =>
          have hname := hnames pair List.mem_cons_self
          have hput := put_join h hname (.document (.showing pair.1.label pair.1.lines))
          -- the folder stays, and it still takes the other names
          have hrest := ih (h.of_keeps (keeps_insert hname.free
              (.document (.showing pair.1.label pair.1.lines))))
            fun other hother => (hnames other (List.mem_cons_of_mem pair hother)).insert _
          rw [if_pos rfl, carryOut, Artifact.documentPath, hput, Progress.andThen_of_done rfl,
            Progress.failure_after, Progress.written_after, hrest.1, hrest.2, Bool.true_and]
          exact ⟨rfl, rfl⟩

/-- What is written under paths to different places is there. -/
theorem lastWritten_of_nodup {written : List (String × FileContent)}
    {file : String × FileContent} (hnodup : (written.map (files.resolve ·.1)).Nodup)
    (hfile : file ∈ written) (hplace : files.resolve file.1 = .ok place) :
    files.lastWritten place written = some file.2 := by
  obtain ⟨before, after, rfl⟩ := List.append_of_mem hfile
  refine lastWritten_of_last hplace fun other hother hsame => ?_
  rw [List.map_append, List.map_cons] at hnodup
  have hafter := (List.nodup_cons.mp (List.nodup_append.mp hnodup).2.1).1
  refine hafter ?_
  rw [hplace, ← hsame]
  exact List.mem_map_of_mem hother

end Store

namespace Artifact

variable {artifacts : List Artifact}

theorem map_snd_zip_namesFor (artifacts : List Artifact) :
    (artifacts.zip (namesFor artifacts)).map Prod.snd = namesFor artifacts :=
  List.map_snd_zip (by simp [namesFor, length_documentNames])

theorem mem_namesFor_of_mem_zip {pair : Artifact × String}
    (h : pair ∈ artifacts.zip (namesFor artifacts)) : pair.2 ∈ namesFor artifacts :=
  (List.of_mem_zip h).2

theorem all_isPrintable_zip (artifacts : List Artifact) :
    (artifacts.zip (namesFor artifacts)).all (·.1.isPrintable) =
      artifacts.all (·.isPrintable) := by
  have hfirst : (artifacts.zip (namesFor artifacts)).map Prod.fst = artifacts :=
    List.map_fst_zip (by simp [namesFor, length_documentNames])
  have hall := List.all_map (l := artifacts.zip (namesFor artifacts)) (f := Prod.fst)
    (p := isPrintable)
  rw [hfirst] at hall
  exact hall.symm

/-- If all labels can be headings, all documents are written. -/
theorem writtenPairs_of_all (h : artifacts.all (·.isPrintable)) :
    writtenPairs artifacts = artifacts.zip (namesFor artifacts) := by
  rw [writtenPairs, List.takeWhile_eq_self_iff]
  intro pair hpair
  exact List.all_eq_true.mp h pair.1 (List.of_mem_zip hpair).1

theorem nodup_map_snd_writtenPairs (artifacts : List Artifact) :
    ((writtenPairs artifacts).map Prod.snd).Nodup := by
  have hsublist := ((artifacts.zip (namesFor artifacts)).takeWhile_sublist
    (·.1.isPrintable)).map Prod.snd
  rw [map_snd_zip_namesFor] at hsublist
  exact (nodup_documentNames _).sublist hsublist

/-- What one call does to files that take the names: how far it comes, what it wrote and
where that lies. -/
theorem carryOutIn_documents {files widened : Store} {folder : String}
    (h : files.Accepts widened folder (namesFor artifacts)) :
    ∃ place, widened.DirectoryAt folder place ∧
      (files.carryOutIn folder (documentSteps artifacts folder)).failure =
        (if artifacts.all (·.isPrintable) then none else some .unprintableText) ∧
      (files.carryOutIn folder (documentSteps artifacts folder)).written =
        (writtenPairs artifacts).map fun pair =>
          (documentPath folder pair.2, .document (.showing pair.1.label pair.1.lines)) := by
  obtain ⟨place, hplace⟩ := Store.isDirectory_iff.mp h.isDirectory
  have hdocuments := Store.carryOut_documents hplace (artifacts.zip (namesFor artifacts))
    fun pair hpair => by
      have hname := mem_namesFor_of_mem_zip hpair
      have hfree := h.free _ hname
      rw [documentPath, Store.find?, hplace.resolve_join (isName_documentName hname)
        (h.short _ hname)] at hfree
      exact ⟨isName_documentName hname, h.short _ hname, hfree⟩
  rw [all_isPrintable_zip] at hdocuments
  refine ⟨place, hplace, ?_⟩
  rw [Store.carryOutIn_of_made h.made]
  exact hdocuments

theorem run_writeDocuments {session : Session} {widened : Store} {outDir folder : String}
    (h : session.store.Accepts widened (Path.join outDir folder) (namesFor artifacts)) :
    ∃ later, (writeDocuments artifacts outDir folder).run session =
        (if artifacts.all (·.isPrintable) then
          .ok ((namesFor artifacts).map (documentPath (Path.join outDir folder)))
        else .error .unprintableText, later) ∧
      later.store = (session.store.carryOutIn (Path.join outDir folder)
        (documentSteps artifacts (Path.join outDir folder))).files := by
  obtain ⟨place, hplace, hfailure, _⟩ := carryOutIn_documents h
  refine (actsAs_writeDocuments artifacts hplace.ne_empty).exists_run session ?_
  rw [Effect.ofProgress]
  cases hall : artifacts.all (·.isPrintable) with
  | true =>
      rw [hall, if_pos rfl] at hfailure
      rw [Progress.give_of_done hfailure, if_pos rfl]
      rfl
  | false =>
      rw [hall, if_neg Bool.false_ne_true] at hfailure
      rw [Progress.give_of_failure hfailure, if_neg Bool.false_ne_true]

/-- Documents of different names are at different places of a folder. -/
theorem nodup_map_places (place : Place) {pairs : List (Artifact × String)}
    (h : (pairs.map Prod.snd).Nodup) :
    (pairs.map fun pair =>
      (.ok (place ++ [pair.2 ++ ".docx"]) : Except FileFault Place)).Nodup := by
  have hinjective : Function.Injective fun name : String =>
      (.ok (place ++ [name ++ ".docx"]) : Except FileFault Place) := by
    intro first second hsame
    have hnames := List.append_cancel_left (Except.ok.inj hsame)
    have hlists := congrArg String.toList (List.singleton_inj.mp hnames)
    rw [String.toList_append, String.toList_append] at hlists
    exact String.toList_inj.mp (List.append_cancel_right hlists)
  have hmap := h.map hinjective
  rwa [List.map_map] at hmap

/-- What one call leaves in the folder: the documents that were written, each at the place
of its name, and everything else as it was. -/
theorem fileAt_carryOutIn_documents {files widened later : Store} {folder : String}
    (h : files.Accepts widened folder (namesFor artifacts))
    (hlater : later = (files.carryOutIn folder (documentSteps artifacts folder)).files) :
    ∃ place, later.DirectoryAt folder place ∧
      (∀ pair ∈ writtenPairs artifacts,
        later.resolve (documentPath folder pair.2) = .ok (place ++ [pair.2 ++ ".docx"]) ∧
        later.fileAt (place ++ [pair.2 ++ ".docx"]) =
          some (.document (.showing pair.1.label pair.1.lines))) ∧
      ∀ other, (∀ pair ∈ writtenPairs artifacts, other ≠ place ++ [pair.2 ++ ".docx"]) →
        later.fileAt other = files.fileAt other := by
  obtain ⟨place, hplace, _, hwritten⟩ := carryOutIn_documents h
  have hrecords := Store.records_carryOutIn files folder (documentSteps artifacts folder)
  rw [hwritten, ← hlater] at hrecords
  have hthere : later.DirectoryAt folder place := by
    rw [hlater, Store.carryOutIn_of_made h.made]
    exact hplace.carryOut _
  have hresolve : ∀ pair ∈ writtenPairs artifacts,
      later.resolve (documentPath folder pair.2) = .ok (place ++ [pair.2 ++ ".docx"]) := by
    intro pair hpair
    have hname := mem_namesFor_of_mem_zip (List.takeWhile_subset _ hpair)
    exact hthere.resolve_join (isName_documentName hname) (h.short _ hname)
  have hplaces : ((writtenPairs artifacts).map fun pair =>
      later.resolve (documentPath folder pair.2)).Nodup := by
    rw [List.map_congr_left hresolve]
    exact nodup_map_places place (nodup_map_snd_writtenPairs artifacts)
  refine ⟨place, hthere, fun pair hpair => ⟨hresolve pair hpair, ?_⟩, fun other hother => ?_⟩
  · rw [hrecords.fileAt, Store.lastWritten_of_nodup (by rwa [List.map_map])
      (List.mem_map_of_mem hpair) (hresolve pair hpair), Option.some_or]
  · have hnone : later.lastWritten other ((writtenPairs artifacts).map fun pair =>
        (documentPath folder pair.2,
          FileContent.document (.showing pair.1.label pair.1.lines))) = none := by
      refine Store.lastWritten_eq_none_iff.mpr fun file hfile hsame => ?_
      obtain ⟨pair, hpair, rfl⟩ := List.mem_map.mp hfile
      rw [hresolve pair hpair] at hsame
      exact hother pair hpair (Except.ok.inj hsame).symm
    rw [hrecords.fileAt, hnone, Option.none_or]

/-- **The documents in a folder.**  The search for the name of a document comes to an end,
at the name that its label stands for if no document before it in the call has that, else
at that name with the least number behind it that gives one that none before it has.  So
there is one name for each artifact, all are different, and none is empty or has a
character that file names should not have.

Where the files take these names in a folder, the call gives the paths of the names in the
folder, in order, or it fails because a label cannot be a heading, whichever lines there
are.  The documents of the artifacts before the first such label lie in the folder, each
under its name and with the label and the lines of its artifact; every other file is as
it was. -/
theorem writeDocuments_in_folder (artifacts : List Artifact) (outDir folder : String) :
    (namesFor artifacts).length = artifacts.length ∧
      (∀ (index : Nat) (artifact : Artifact) (name : String),
        artifacts[index]? = some artifact → (namesFor artifacts)[index]? = some name →
          Search ((namesFor artifacts).take index) (fileName artifact.label) 0
            (fileName artifact.label) name ∧
          (fileName artifact.label ∉ (namesFor artifacts).take index →
            name = fileName artifact.label) ∧
          (fileName artifact.label ∈ (namesFor artifacts).take index →
            ∃ number, 1 ≤ number ∧ name = fileName artifact.label ++ "_" ++ toString number ∧
              name ∉ (namesFor artifacts).take index ∧
              ∀ smaller, 1 ≤ smaller → smaller < number →
                fileName artifact.label ++ "_" ++ toString smaller ∈
                  (namesFor artifacts).take index)) ∧
      (namesFor artifacts).Nodup ∧
      (∀ name ∈ namesFor artifacts, name ≠ "" ∧
        ∀ c ∈ name.toList, 0x1F < c.toNat ∧ c ∉ "<>:\"/\\|?*".toList) ∧
      (artifacts.all (·.isPrintable) →
        writtenPairs artifacts = artifacts.zip (namesFor artifacts)) ∧
      ∀ session widened,
        session.store.Accepts widened (Path.join outDir folder) (namesFor artifacts) →
          ∃ later place, (writeDocuments artifacts outDir folder).run session =
              (if artifacts.all (·.isPrintable) then
                .ok ((namesFor artifacts).map (documentPath (Path.join outDir folder)))
              else .error .unprintableText, later) ∧
            later.store.DirectoryAt (Path.join outDir folder) place ∧
            (∀ pair ∈ writtenPairs artifacts,
              later.store.resolve (documentPath (Path.join outDir folder) pair.2) =
                .ok (place ++ [pair.2 ++ ".docx"]) ∧
              later.store.fileAt (place ++ [pair.2 ++ ".docx"]) =
                some (.document (.showing pair.1.label pair.1.lines))) ∧
            ∀ other, (∀ pair ∈ writtenPairs artifacts, other ≠ place ++ [pair.2 ++ ".docx"]) →
              later.store.fileAt other = session.store.fileAt other := by
  refine ⟨by simp [namesFor, length_documentNames], ?_, nodup_documentNames _, ?_,
    writtenPairs_of_all, ?_⟩
  · intro index artifact name hartifact hname
    have hlabel : (artifacts.map (·.label))[index]? = some artifact.label := by
      rw [List.getElem?_map, hartifact, Option.map_some]
    have hfirst := firstFree_documentNames hlabel hname
    exact ⟨hfirst.search, hfirst.eq_of_not_mem, hfirst.exists_number⟩
  · intro name hname
    refine ⟨ne_empty_of_mem_documentNames hname, fun c hc => ?_⟩
    exact isUnsafeInName_eq_false_iff.mp (safe_of_mem_documentNames hname c hc)
  · intro session widened haccepts
    obtain ⟨later, hrun, hfiles⟩ := run_writeDocuments haccepts
    obtain ⟨place, hplace, hdocuments, hothers⟩ :=
      fileAt_carryOutIn_documents haccepts hfiles
    exact ⟨later, place, hrun, hplace, hdocuments, hothers⟩

/-- Two methods of one name and one whose name looks numbered. -/
def overloads : List Artifact :=
  [⟨"A f", ["one"]⟩, ⟨"A f_1", ["other"]⟩, ⟨"A f", ["two"]⟩]

theorem namesFor_overloads : namesFor overloads = ["A f", "A f_1", "A f_2"] := by
  decide

/-- Files with nothing below the root take their documents. -/
theorem exists_accepts_overloads :
    ∃ widened, (Store.mk "/" []).Accepts widened (Path.join "out" "docs")
      (namesFor overloads) := by
  have hmakes : ((Store.mk "/" []).makeDirectories (Path.join "out" "docs")).toOption.map
      (fun widened => (widened.isDirectory (Path.join "out" "docs"),
        (namesFor overloads).map fun name =>
          (widened.find? (documentPath (Path.join "out" "docs") name)).isNone)) =
      some (true, [true, true, true]) := by
    decide +kernel
  cases hmade : (Store.mk "/" []).makeDirectories (Path.join "out" "docs") with
  | error failure => simp [hmade, Except.toOption] at hmakes
  | ok widened =>
      rw [hmade, namesFor_overloads] at hmakes
      simp only [Except.toOption, Option.map_some, Option.some.injEq, Prod.mk.injEq,
        List.map_cons, List.map_nil, List.cons.injEq, Option.isNone_iff_eq_none] at hmakes
      obtain ⟨hdirectory, hfirst, hsecond, hthird, _⟩ := hmakes
      refine ⟨widened, hmade, hdirectory, ?_, ?_⟩
      · rw [namesFor_overloads]
        decide
      · rw [namesFor_overloads]
        simp [hfirst, hsecond, hthird]

/-- The second method of that name gets a number that the other does not have. -/
theorem writeDocuments_overloads :
    ∃ widened later place, (Store.mk "/" []).Accepts widened (Path.join "out" "docs")
        (namesFor overloads) ∧
      (writeDocuments overloads "out" "docs").run ⟨⟨"/", []⟩, [], false⟩ =
        (.ok ["out/docs/A f.docx", "out/docs/A f_1.docx", "out/docs/A f_2.docx"], later) ∧
      later.store.DirectoryAt (Path.join "out" "docs") place ∧
      later.store.fileAt (place ++ ["A f_2.docx"]) =
        some (.document (.showing "A f" ["two"])) := by
  obtain ⟨widened, haccepts⟩ := exists_accepts_overloads
  obtain ⟨_, _, _, _, hall, hcall⟩ := writeDocuments_in_folder overloads "out" "docs"
  obtain ⟨later, place, hrun, hplace, hdocuments, _⟩ :=
    hcall ⟨⟨"/", []⟩, [], false⟩ widened haccepts
  have hpaths : (namesFor overloads).map (documentPath (Path.join "out" "docs")) =
      ["out/docs/A f.docx", "out/docs/A f_1.docx", "out/docs/A f_2.docx"] := by
    decide
  have hprintable : overloads.all (·.isPrintable) = true := by decide
  rw [if_pos hprintable, hpaths] at hrun
  have hmem : (⟨"A f", ["two"]⟩, "A f_2") ∈ writtenPairs overloads := by
    rw [hall hprintable, namesFor_overloads]
    decide
  exact ⟨widened, later, place, haccepts, hrun, hplace, (hdocuments _ hmem).2⟩

end Artifact

end JavaSketch
