import JavaSketch.Proofs.Batches
import JavaSketch.Proofs.Locating

/-!
# Outputs beside sources

Whatever a turn writes lies in the folder of the mode under a name that is not
that of a source.  So the sources that are there are read at their turns as they
were at the start, whatever the turns before have written.

**Results.**
* `isOutput_of_mem_steps`: where a turn writes.
* `spares_of_mem_turns`: turns leave the sources alone.
* `examine_eq_ok_iff_of_spares`: what a source that is there comes to does not
  depend on when its turn comes.
-/

namespace JavaSketch

open Syntax (Parser)

namespace Path

theorem mem_of_mem_stemOfName {c : Char} {name : List Char} (h : c ∈ stemOfName name) :
    c ∈ name := by
  unfold stemOfName at h
  cases hbefore : name.reverse.dropWhile (· != '.') with
  | nil => simpa [hbefore] using h
  | cons dot before =>
      simp only [hbefore] at h
      split_ifs at h
      · have hmem : c ∈ name.reverse.dropWhile (· != '.') := by
          rw [hbefore]
          exact List.mem_cons_of_mem dot (List.mem_reverse.mp h)
        exact List.mem_reverse.mp ((List.dropWhile_suffix _).subset hmem)
      · exact h

theorem mem_of_mem_baseChars {c : Char} {path : List Char} (h : c ∈ baseChars path) :
    c ∈ path ∧ c ≠ '/' := by
  unfold baseChars at h
  cases hlast : (names path).getLast? with
  | none => simp [hlast] at h
  | some last =>
      rw [hlast, Option.getD_some] at h
      exact Text.mem_of_mem_pieces (List.mem_of_getLast? hlast) h

theorem mem_of_mem_stemChars {c : Char} {path : List Char} (h : c ∈ stemChars path) :
    c ∈ path := by
  rcases List.mem_append.mp h with hhead | hstem
  · exact List.take_subset _ _ hhead
  · exact (mem_of_mem_baseChars (mem_of_mem_stemOfName hstem)).1

theorem slash_not_mem_stem_baseChars (path : List Char) : '/' ∉ stemChars (baseChars path) :=
  fun h => (mem_of_mem_baseChars (mem_of_mem_stemChars h)).2 rfl

end Path

theorem slash_not_mem_moduleName {workingDir path root name : String}
    (h : moduleName workingDir path root = .ok name) : '/' ∉ name.toList := by
  unfold moduleName at h
  split_ifs at h
  · obtain rfl := Except.ok.inj h
    rw [String.toList_ofList]
    exact Path.slash_not_mem_stem_baseChars path.toList
  · obtain rfl := Except.ok.inj h
    rw [String.toList_ofList]
    intro hmem
    obtain ⟨c, _, hc⟩ := List.mem_map.mp hmem
    split_ifs at hc with hslash
    · exact absurd hc (by decide)
    · exact hslash hc

theorem slash_not_mem_indexName {source given : String} (h : '/' ∉ given.toList) :
    '/' ∉ (Artifact.indexName source given).toList := by
  unfold Artifact.indexName
  split_ifs
  · rw [String.toList_ofList]
    exact Path.slash_not_mem_stem_baseChars source.toList
  · exact h

/-- Whether a path is that of a file in a folder whose name is not that of a source. -/
def IsOutput (target path : String) : Prop :=
  ∃ name, Path.IsName name ∧ isSourcePath name = false ∧ path = Path.join target name

theorem isSourcePath_append {base extension : String} (hlength : 5 ≤ extension.length)
    (hextension : isSourcePath extension = false) : isSourcePath (base ++ extension) = false := by
  rw [Bool.eq_false_iff] at hextension ⊢
  intro h
  refine hextension (List.isSuffixOf_iff_suffix.mpr ?_)
  have hsuffix := List.isSuffixOf_iff_suffix.mp h
  rw [String.toList_append] at hsuffix
  exact List.suffix_of_suffix_length_le hsuffix (List.suffix_append _ _) hlength

namespace Artifact

theorem isOutput_documentPath {labels : List String} {name : String}
    (h : name ∈ documentNames labels) (target : String) :
    IsOutput target (documentPath target name) :=
  ⟨_, isName_documentName h, isSourcePath_append (by decide) (by decide), rfl⟩

theorem isOutput_of_mem_documentSteps {artifacts : List Artifact} {target : String}
    {file : String × FileContent} (h : .ok file ∈ documentSteps artifacts target) :
    IsOutput target file.1 := by
  obtain ⟨pair, hpair, hstep⟩ := List.mem_map.mp h
  obtain ⟨document, _, rfl⟩ := exists_of_step_eq_ok hstep
  exact isOutput_documentPath (List.of_mem_zip hpair).2 target

theorem isName_indexFile {workingDir root source name : String}
    (h : moduleName workingDir source root = .ok name) :
    Path.IsName (indexName source name ++ ".json") :=
  Path.isName_append (slash_not_mem_indexName (slash_not_mem_moduleName h)) (by decide)
    (by decide)

theorem isOutput_of_indexStep_eq_ok {artifacts : List Artifact}
    {workingDir target root source : String} {file : String × FileContent}
    (h : indexStep artifacts workingDir target root source = .ok file) :
    IsOutput target file.1 := by
  obtain ⟨name, hname, rfl⟩ := exists_of_indexStep_eq_ok h
  exact ⟨_, isName_indexFile hname, isSourcePath_append (by decide) (by decide), rfl⟩

end Artifact

namespace Run

variable {parse : Parser} {mode : Mode} {outDir root : String}

/-- A step writes a document or the index. -/
theorem mem_steps_cases {workingDir source : String} {artifacts : List Artifact} {step : Step}
    (h : step ∈ steps mode workingDir outDir root source artifacts) :
    step ∈ Artifact.documentSteps artifacts (Path.join outDir mode.folder) ∨
      Artifact.indexStep artifacts workingDir (Path.join outDir mode.folder) root source = step := by
  cases mode with
  | pseudocode =>
      simp only [steps] at h
      split_ifs at h
      · simp at h
      · exact (List.mem_append.mp h).imp_right fun hindex => (List.mem_singleton.mp hindex).symm
  | classes => exact Or.inl h
  | table => simp [steps] at h

theorem isOutput_of_mem_steps {workingDir source : String} {artifacts : List Artifact}
    {file : String × FileContent}
    (h : .ok file ∈ steps mode workingDir outDir root source artifacts) :
    IsOutput (Path.join outDir mode.folder) file.1 := by
  rcases mem_steps_cases h with hdocument | hindex
  · exact Artifact.isOutput_of_mem_documentSteps hdocument
  · exact Artifact.isOutput_of_indexStep_eq_ok hindex

end Run

namespace Store

/-- What else may change between two stores, the sources of the earlier one do not. -/
structure Spares (earlier later : Store) : Prop where
  keeps : Keeps earlier later
  source : ∀ {directory : Place} {name : String} {content : FileContent}, isSourcePath name →
    (later.entry (directory ++ [name]) = some (.file content) ↔
      earlier.entry (directory ++ [name]) = some (.file content))

namespace Spares

theorem refl (store : Store) : Spares store store :=
  ⟨Keeps.refl store, fun _ => Iff.rfl⟩

theorem trans {first second third : Store} (h : Spares first second)
    (h' : Spares second third) : Spares first third :=
  ⟨h.keeps.trans h'.keeps, fun hname => (h'.source hname).trans (h.source hname)⟩

end Spares

theorem Widens.spares {earlier later : Store} (h : Widens earlier later) :
    Spares earlier later :=
  ⟨h.keeps, fun _ => ⟨h.file, h.entry⟩⟩

theorem spares_insert {store : Store} {target path : String} {place : Place}
    (htarget : Path.CanHold target) (hpath : IsOutput target path)
    (hplace : store.resolve path = .ok place) (hentry : store.entry place ≠ some .directory)
    (content : FileContent) : Spares store (store.insert place (.file content)) := by
  refine ⟨keeps_insert hentry content, fun {directory name _} hsource => ?_⟩
  obtain ⟨output, hname, houtput, rfl⟩ := hpath
  obtain ⟨directory', _, rfl⟩ := exists_of_resolve_join htarget hname hplace
  have hne : directory ++ [name] ≠ directory' ++ [output] := by
    intro heq
    obtain ⟨_, hlast⟩ := List.append_inj' heq rfl
    obtain rfl := List.singleton_injective hlast
    simp [houtput] at hsource
  rw [entry_insert_of_ne hne]

theorem spares_put {files : Store} {target path : String} (htarget : Path.CanHold target)
    (hpath : IsOutput target path) (content : FileContent) :
    Spares files (files.put path content).files := by
  obtain ⟨widened, hwidens, ⟨failure, hput⟩ | ⟨place, hput, hplace, hentry⟩⟩ :=
    put_cases files path content
  · rw [hput]
    exact hwidens.spares
  · rw [hput]
    exact hwidens.spares.trans (spares_insert htarget hpath hplace hentry content)

/-- A source path that led somewhere leads to the same text or to none as before. -/
theorem readText_of_spares {earlier later : Store} (h : Spares earlier later) {path : String}
    {place : Place} (hsource : isSourcePath path) (hplace : earlier.resolve path = .ok place)
    (text : String) : later.readText path = .ok text ↔ earlier.readText path = .ok text := by
  obtain ⟨directory, name, rfl, hname⟩ := exists_of_resolve_sourcePath hsource hplace
  have hlater := resolve_of_keeps h.keeps hplace
  have hread : ∀ store : Store, store.resolve path = .ok (directory ++ [name]) →
      (store.readText path = .ok text ↔ ∃ content,
        store.entry (directory ++ [name]) = some (.file content) ∧ content.readText = text) := by
    intro store hstore
    simp only [readText, hstore]
    cases store.entry (directory ++ [name]) with
    | none => simp
    | some entry => cases entry <;> simp
  rw [hread earlier hplace, hread later hlater]
  simp only [h.source hname]

end Store

namespace Run

variable {parse : Parser} {mode : Mode} {outDir root : String}

theorem canHold_target (hmode : mode ≠ .table) (outDir : String) :
    Path.CanHold (Path.join outDir mode.folder) := by
  cases mode with
  | pseudocode => exact Path.canHold_join isName_pseudocodeFolder outDir
  | classes => exact Path.canHold_join isName_classFolder outDir
  | table => exact absurd rfl hmode

/-- A turn comes to nothing, or it carries out the steps of what is to be shown. -/
theorem turn_cases (parse : Parser) (mode : Mode) (outDir root : String) (files : Store)
    (source : String) :
    (∃ failure, examine parse mode files source = .error failure ∧
        turn parse mode outDir root files source = .idle files (some failure)) ∨
      ∃ artifacts, examine parse mode files source = .ok artifacts ∧
        ((steps mode files.workingDir outDir root source artifacts = [] ∧
            turn parse mode outDir root files source = .idle files none) ∨
          (mode ≠ .table ∧ steps mode files.workingDir outDir root source artifacts ≠ [] ∧
            turn parse mode outDir root files source =
              files.carryOutIn (Path.join outDir mode.folder)
                (steps mode files.workingDir outDir root source artifacts))) := by
  unfold turn
  cases examine parse mode files source with
  | error failure => exact Or.inl ⟨failure, rfl, rfl⟩
  | ok artifacts =>
      refine Or.inr ⟨artifacts, rfl, ?_⟩
      simp only
      by_cases hempty : steps mode files.workingDir outDir root source artifacts = []
      · exact Or.inl ⟨hempty, by simp [hempty]⟩
      · have htable : mode ≠ .table := by
          rintro rfl
          exact hempty rfl
        exact Or.inr ⟨htable, hempty, by simp [hempty]⟩

theorem spares_turn (parse : Parser) (mode : Mode) (outDir root : String) (files : Store)
    (source : String) :
    Store.Spares files (turn parse mode outDir root files source).files := by
  rcases turn_cases parse mode outDir root files source with
    ⟨failure, _, hturn⟩ | ⟨artifacts, _, ⟨_, hturn⟩ | ⟨hmode, _, hturn⟩⟩
  · rw [hturn]
    exact Store.Spares.refl files
  · rw [hturn]
    exact Store.Spares.refl files
  · rw [hturn]
    exact Store.related_carryOutIn (R := fun earlier _ later => Store.Spares earlier later)
      Store.Widens.spares Store.Spares.trans
      (fun _ file hfile => Store.spares_put (canHold_target hmode outDir)
        (isOutput_of_mem_steps hfile) file.2) files _

theorem files_outcome (progress : Progress) : progress.outcome.2 = progress.files := by
  unfold Progress.outcome Progress.give
  cases progress.failure <;> rfl

/-- The second of two sources has its turn on the files that the first has left. -/
theorem turns_pair {files : Store} {first : String} {progress : Progress}
    (h : turn parse mode outDir root files first = progress) (second : String) :
    turns parse mode outDir root files [first, second] =
      [(first, files), (second, progress.files)] := by
  rw [turns, Batch.turns, Batch.turns, Batch.turns, turnEffect, files_outcome, h]

/-- When the turn of a source file comes, the sources are as they were. -/
theorem spares_of_mem_turns {files before : Store} {sources : List String} {source : String}
    (h : (source, before) ∈ turns parse mode outDir root files sources) :
    Store.Spares files before := by
  unfold turns at h
  induction sources generalizing files with
  | nil => simp [Batch.turns] at h
  | cons first rest ih =>
      rcases List.mem_cons.mp h with heq | hrest
      · obtain ⟨rfl, rfl⟩ := Prod.mk.inj heq
        exact Store.Spares.refl _
      · refine Store.Spares.trans ?_ (ih hrest)
        rw [turnEffect, files_outcome]
        exact spares_turn parse mode outDir root files first

/-- What a source file that is there comes to does not depend on when its turn comes. -/
theorem examine_eq_ok_iff_of_spares {files before : Store} {source : String} {place : Place}
    (h : Store.Spares files before) (hsource : isSourcePath source)
    (hplace : files.resolve source = .ok place) (artifacts : List Artifact) :
    examine parse mode before source = .ok artifacts ↔
      examine parse mode files source = .ok artifacts := by
  have hread := Store.readText_of_spares h hsource hplace
  cases mode <;> simp only [examine, unitAt, bind_eq_ok_iff, hread]

end Run

end JavaSketch
