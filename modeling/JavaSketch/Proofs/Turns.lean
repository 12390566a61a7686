import JavaSketch.Run
import JavaSketch.Proofs.DocumentNames
import JavaSketch.Proofs.Effects
import JavaSketch.Proofs.Folders

/-!
# Turns of source files

Each source file has its turn in a run: it is examined, which changes nothing,
and then the files that it is to become are written step by step.  Here a turn is
told as a function of the files alone; the actions of a run do just that.

**Results.**
* `actsAs_convertFile`, `actsAs_snapshotFile`, `actsAs_summarizeFile`: what is
  done with one source file is its turn.
* `turn_of_takes`: a turn whose files the folder of the mode takes.
-/

namespace JavaSketch

open Syntax (Parser SourceUnit)
open JavaSketch.Action (ActsAs)

theorem exists_of_map_eq_ok {ε α β : Type} {value : Except ε α} {f : α → β} {given : β}
    (h : value.map f = .ok given) : ∃ result, value = .ok result ∧ given = f result := by
  cases value with
  | error failure => cases h
  | ok result => exact ⟨result, rfl, (Except.ok.inj h).symm⟩

namespace Artifact

/-- The step that writes the document of an artifact. -/
def step (artifact : Artifact) (path : String) : Step :=
  artifact.document.map fun document => (path, .document document)

/-- The path of a document below a folder. -/
def documentPath (target name : String) : String :=
  Path.join target (name ++ ".docx")

/-- The paths of the documents of some labels. -/
def documentPaths (labels : List String) (target : String) : List String :=
  (documentNames labels).map (documentPath target)

/-- The steps that write the documents of some artifacts. -/
def documentSteps (artifacts : List Artifact) (target : String) : List Step :=
  (artifacts.zip (documentNames (artifacts.map (·.label)))).map fun (artifact, name) =>
    artifact.step (documentPath target name)

/-- The step that writes the index of some artifacts. -/
def indexStep (artifacts : List Artifact) (workingDir target root source : String) : Step :=
  (moduleName workingDir source root).map fun name =>
    (Path.join target (indexName source name ++ ".json"), .text (index artifacts source).write)

end Artifact

namespace Conversion

/-- The label of a method. -/
def labelOf (method : Span) : String :=
  (method.signature?.map (·.label)).getD ""

/-- The methods that have lines to show. -/
def shownMethods (conversion : Conversion) : List Span :=
  conversion.methods.filter fun method => !(conversion.methodLines method).isEmpty

/-- The artifacts of the methods that have lines to show. -/
def artifacts (conversion : Conversion) : List Artifact :=
  conversion.shownMethods.map fun method =>
    ⟨labelOf method, conversion.methodLines method⟩

end Conversion

namespace Mode

/-- The folder that a mode writes documents to. -/
def folder : Mode → String
  | pseudocode => Run.pseudocodeFolder
  | table => ""
  | classes => Run.classFolder

end Mode

namespace Run

/-- The unit of a source file, as the files are. -/
def unitAt (parse : Parser) (files : Store) (source : String) : Except Failure SourceUnit := do
  let text ← files.readText source
  SourceUnit.read parse source text

/-- What is to be shown of a source file, unless it cannot be read, parsed or
converted. -/
def examine (parse : Parser) (mode : Mode) (files : Store) (source : String) :
    Except Failure (List Artifact) :=
  match mode with
  | .pseudocode => do
      let unit ← unitAt parse files source
      let conversion ← unit.convert none
      return conversion.artifacts
  | .classes => do
      let text ← files.readText source
      return [.ofFile source (Text.splitLines (Text.normalizeNewlines text))]
  | .table => do
      let _ ← unitAt parse files source
      return []

/-- The steps that write what is to be shown of a source file. -/
def steps (mode : Mode) (workingDir outDir root source : String) (artifacts : List Artifact) :
    List Step :=
  let target := Path.join outDir mode.folder
  match mode with
  | .pseudocode =>
      if artifacts.isEmpty then []
      else Artifact.documentSteps artifacts target ++
        [Artifact.indexStep artifacts workingDir target root source]
  | .classes => Artifact.documentSteps artifacts target
  | .table => []

/-- The turn of a source file: what becomes of it when the files are as given. -/
def turn (parse : Parser) (mode : Mode) (outDir root : String) (files : Store)
    (source : String) : Progress :=
  match examine parse mode files source with
  | .error failure => .idle files (some failure)
  | .ok artifacts =>
      let planned := steps mode files.workingDir outDir root source artifacts
      if planned.isEmpty then .idle files none
      else files.carryOutIn (Path.join outDir mode.folder) planned

end Run

namespace Effect

/-- Progress as an effect that gives a value unless something failed. -/
def ofProgress {α : Type} (progress : Store → Progress) (value : α) : Effect α :=
  fun files => (progress files).give value

variable {α β : Type} {progress next : Store → Progress}

theorem ofProgress_andThen (value : α) (other : β) :
    (ofProgress progress value).andThen (fun _ => ofProgress next other) =
      ofProgress (fun files => (progress files).andThen next) other := by
  funext files
  simp only [andThen, ofProgress]
  cases h : (progress files).failure with
  | some failure =>
      rw [Progress.give_of_failure h, Progress.andThen_of_failure h,
        Progress.give_of_failure h]
  | none =>
      rw [Progress.give_of_done h, Progress.andThen_of_done h]
      rfl

theorem ofProgress_andThen_value (value : α) (second : α → Effect β) :
    (ofProgress progress value).andThen second =
      (ofProgress progress value).andThen fun _ => second value := by
  funext files
  simp only [andThen, ofProgress]
  cases h : (progress files).failure with
  | some failure => rw [Progress.give_of_failure h]
  | none => rw [Progress.give_of_done h]

theorem ofProgress_andThen_reading (value : α) (other : β) :
    (ofProgress progress value).andThen (fun _ => reading fun _ => .ok other) =
      ofProgress progress other := by
  funext files
  simp only [andThen, ofProgress]
  cases h : (progress files).failure with
  | some failure => rw [Progress.give_of_failure h, Progress.give_of_failure h]
  | none =>
      rw [Progress.give_of_done h, Progress.give_of_done h]
      rfl

/-- A step for each element of a list is all of these steps. -/
theorem forEach_carryOut (step : α → Step) (value : α → β) (elements : List α) :
    forEach (fun element => ofProgress (·.carryOut [step element]) (value element)) elements =
      ofProgress (·.carryOut (elements.map step)) (elements.map value) := by
  induction elements with
  | nil => rfl
  | cons element rest ih =>
      have hsteps : ∀ files : Store, files.carryOut (step element :: rest.map step) =
          (files.carryOut [step element]).andThen fun later =>
            later.carryOut (rest.map step) := fun files =>
        files.carryOut_append [step element] (rest.map step)
      have hrest : ∀ next : List β → Effect (List β),
          (ofProgress (·.carryOut (rest.map step)) (rest.map value)).andThen next =
            (ofProgress (·.carryOut (rest.map step)) (rest.map value)).andThen fun _ =>
              next (rest.map value) := ofProgress_andThen_value _
      rw [forEach, ih, ofProgress_andThen_value]
      simp only [hrest, ofProgress_andThen_reading, ofProgress_andThen, List.map_cons, hsteps]

end Effect

namespace Action

theorem actsAs_makeDirectories (directory : String) :
    ActsAs (updateStore (·.makeDirectories directory))
      (.ofProgress (·.prepare directory) ()) := by
  refine (ActsAs.updateStore _).of_eq (funext fun files => ?_)
  simp only [Effect.ofProgress, Store.prepare]
  cases files.makeDirectories directory <;> rfl

theorem actsAs_writeFile (path : String) (content : FileContent) :
    ActsAs (updateStore (·.writeFile path content))
      (.ofProgress (·.write path content) ()) := by
  refine (ActsAs.updateStore _).of_eq (funext fun files => ?_)
  simp only [Effect.ofProgress, Store.write]
  cases files.writeFile path content <;> rfl

/-- A file is put where its directory was asked for. -/
theorem actsAs_put (path : String) (content : FileContent) :
    ActsAs (do
      updateStore (·.makeDirectories (Path.directory path))
      updateStore (·.writeFile path content)
      return path)
      (.ofProgress (·.put path content) path) := by
  refine ((actsAs_makeDirectories _).bind fun _ =>
    (actsAs_writeFile path content).bind fun _ => ActsAs.pure path).of_eq ?_
  rw [Effect.ofProgress_andThen_reading]
  exact Effect.ofProgress_andThen () path

end Action

namespace Artifact

theorem isName_documentName {labels : List String} {name : String} (h : name ∈ documentNames labels) :
    Path.IsName (name ++ ".docx") :=
  Path.isName_append (slash_not_mem_documentNames h) (by decide) (by decide)

theorem actsAs_writeDocument (artifact : Artifact) {path : String}
    (hpath : Path.directory path ≠ "") :
    ActsAs (artifact.writeDocument path)
      (.ofProgress (·.carryOut [artifact.step path]) path) := by
  unfold writeDocument
  simp only [if_neg hpath]
  refine ((ActsAs.ofExcept _).bind fun document =>
    Action.actsAs_put path (.document document)).of_eq ?_
  unfold step
  cases artifact.document with
  | error failure => exact Effect.reading_error_andThen failure _
  | ok document =>
      rw [Effect.reading_ok_andThen]
      simp only [Except.map, Store.carryOut_singleton]

theorem map_documentPath_zip (artifacts : List Artifact) (target : String) :
    (artifacts.zip (documentNames (artifacts.map (·.label)))).map
        (fun pair => documentPath target pair.2) =
      documentPaths (artifacts.map (·.label)) target := by
  have hsecond : (artifacts.zip (documentNames (artifacts.map (·.label)))).map Prod.snd =
      documentNames (artifacts.map (·.label)) :=
    List.map_snd_zip (by simp [length_documentNames])
  calc
    _ = ((artifacts.zip (documentNames (artifacts.map (·.label)))).map Prod.snd).map
          (documentPath target) := by
      rw [List.map_map]
      rfl
    _ = _ := by rw [hsecond, documentPaths]

/-- The documents of some artifacts are written step by step once their folder is
there. -/
theorem actsAs_writeDocuments (artifacts : List Artifact) {outDir folder : String}
    (hfolder : Path.join outDir folder ≠ "") :
    ActsAs (writeDocuments artifacts outDir folder)
      (.ofProgress (·.carryOutIn (Path.join outDir folder)
          (documentSteps artifacts (Path.join outDir folder)))
        (documentPaths (artifacts.map (·.label)) (Path.join outDir folder))) := by
  have hwrite : ∀ pair ∈ artifacts.zip (documentNames (artifacts.map (·.label))),
      ActsAs (pair.1.writeDocument (documentPath (Path.join outDir folder) pair.2))
        (.ofProgress
          (·.carryOut [pair.1.step (documentPath (Path.join outDir folder) pair.2)])
          (documentPath (Path.join outDir folder) pair.2)) := by
    intro pair hpair
    exact actsAs_writeDocument pair.1 (Path.directory_join_ne_empty hfolder
      (isName_documentName (List.of_mem_zip hpair).2))
  refine ((Action.actsAs_makeDirectories _).bind fun _ => ActsAs.mapM hwrite).of_eq ?_
  rw [Effect.forEach_carryOut, Effect.ofProgress_andThen, map_documentPath_zip]
  rfl

theorem actsAs_writeIndex (artifacts : List Artifact) (outDir folder source given : String) :
    ActsAs (writeIndex artifacts outDir folder source given)
      (.ofProgress (·.put (Path.join (Path.join outDir folder) (indexName source given ++ ".json"))
          (.text (index artifacts source).write))
        (Path.join (Path.join outDir folder) (indexName source given ++ ".json"))) :=
  Action.actsAs_put _ _

theorem exists_of_step_eq_ok {artifact : Artifact} {path : String} {file : String × FileContent}
    (h : artifact.step path = .ok file) :
    ∃ document, artifact.document = .ok document ∧ file = (path, .document document) :=
  exists_of_map_eq_ok h

theorem exists_of_indexStep_eq_ok {artifacts : List Artifact}
    {workingDir target root source : String} {file : String × FileContent}
    (h : indexStep artifacts workingDir target root source = .ok file) :
    ∃ name, moduleName workingDir source root = .ok name ∧
      file = (Path.join target (indexName source name ++ ".json"),
        .text (index artifacts source).write) :=
  exists_of_map_eq_ok h

/-- The documents that were written are at the first paths of the labels. -/
theorem paths_of_prefix_documentSteps {artifacts : List Artifact} {target : String}
    {written : List (String × FileContent)}
    (h : written.map .ok <+: documentSteps artifacts target) :
    written.map (·.1) <+: documentPaths (artifacts.map (·.label)) target := by
  rw [← map_documentPath_zip]
  unfold documentSteps at h
  generalize artifacts.zip (documentNames (artifacts.map (·.label))) = pairs at h ⊢
  induction pairs generalizing written with
  | nil => simp_all
  | cons pair rest ih =>
      cases written with
      | nil => exact List.nil_prefix
      | cons file written =>
          rw [List.map_cons, List.map_cons, List.cons_prefix_cons] at h ⊢
          obtain ⟨document, _, rfl⟩ := exists_of_step_eq_ok h.1.symm
          exact ⟨rfl, ih h.2⟩

/-- Documents that were all written are at the paths of their labels. -/
theorem paths_of_documentSteps {artifacts : List Artifact} {target : String}
    {written : List (String × FileContent)}
    (h : written.map .ok = documentSteps artifacts target) :
    written.map (·.1) = documentPaths (artifacts.map (·.label)) target := by
  refine (paths_of_prefix_documentSteps (h ▸ List.prefix_rfl)).eq_of_length ?_
  have hlength := congrArg List.length h
  simpa [documentSteps, documentPaths, length_documentNames] using hlength

end Artifact

namespace Run

theorem actsAs_readUnit (parse : Parser) (source : String) :
    ActsAs (readUnit parse source) (.reading fun files => unitAt parse files source) := by
  refine (ActsAs.store.bind fun files => (ActsAs.ofExcept (files.readText source)).bind fun text =>
    ActsAs.ofExcept (SourceUnit.read parse source text)).of_eq (funext fun files => ?_)
  simp only [unitAt, Effect.andThen, Effect.reading]
  cases files.readText source <;> rfl

/-- The artifact of a method that has lines to show. -/
def artifactOf (conversion : Conversion) (method : Span) : Option Artifact :=
  if (conversion.methodLines method).isEmpty then none
  else some ⟨Conversion.labelOf method, conversion.methodLines method⟩

theorem actsAs_methodArtifact (conversion : Conversion) (method : Span) :
    ActsAs (methodArtifact conversion method)
      (.reading fun _ => .ok (artifactOf conversion method)) := by
  unfold methodArtifact artifactOf
  simp only
  split_ifs
  · exact (ActsAs.tell _).bind fun _ => ActsAs.pure none
  · exact ActsAs.pure _

theorem filterMap_artifactOf (conversion : Conversion) :
    conversion.methods.filterMap (artifactOf conversion) = conversion.artifacts := by
  rw [Conversion.artifacts, Conversion.shownMethods]
  induction conversion.methods with
  | nil => rfl
  | cons method rest ih =>
      by_cases hlines : (conversion.methodLines method).isEmpty
      · have hnone : artifactOf conversion method = none := if_pos hlines
        rw [List.filterMap_cons_none hnone, List.filter_cons_of_neg (by simpa using hlines), ih]
      · have hsome : artifactOf conversion method =
            some ⟨Conversion.labelOf method, conversion.methodLines method⟩ := if_neg hlines
        rw [List.filterMap_cons_some hsome, List.filter_cons_of_pos (by simpa using hlines), ih,
          List.map_cons]

/-- The artifacts of a source file come from examining it. -/
theorem actsAs_methodArtifacts (parse : Parser) (source : String) :
    ActsAs (methodArtifacts parse source)
      (.reading fun files => examine parse .pseudocode files source) := by
  refine ((actsAs_readUnit parse source).bind fun unit =>
    (ActsAs.ofExcept (unit.convert none)).bind fun conversion =>
      (ActsAs.forM fun diagnostic => ActsAs.warn _).bind fun _ =>
        (ActsAs.mapM fun method _ => actsAs_methodArtifact conversion method).bind fun artifacts =>
          ActsAs.pure _).of_eq (funext fun files => ?_)
  simp only [Effect.forEach_reading, Effect.reading_ok_andThen, List.filterMap_map,
    Function.id_comp, filterMap_artifactOf]
  simp only [Effect.andThen, Effect.reading, examine]
  cases unitAt parse files source with
  | error failure => rfl
  | ok unit =>
      simp only [bind, Except.bind]
      cases unit.convert none <;> rfl

theorem isName_pseudocodeFolder : Path.IsName pseudocodeFolder :=
  Path.isName_of_length (by decide) (by decide)

theorem isName_classFolder : Path.IsName classFolder :=
  Path.isName_of_length (by decide) (by decide)

/-- Documents and an index after them are the steps of both. -/
theorem actsAs_writeShown (artifacts : List Artifact) (outDir root source : String)
    (notice : Notice) :
    ActsAs (do
      let documents ← Artifact.writeDocuments artifacts outDir pseudocodeFolder
      let name ← Action.ofExcept (moduleName (← Action.store).workingDir source root)
      let index ← Artifact.writeIndex artifacts outDir pseudocodeFolder source name
      Action.tell notice
      return documents ++ [index]) fun files =>
        (files.carryOutIn (Path.join outDir pseudocodeFolder)
          (Artifact.documentSteps artifacts (Path.join outDir pseudocodeFolder) ++
            [Artifact.indexStep artifacts files.workingDir (Path.join outDir pseudocodeFolder)
              root source])).outcome := by
  refine ((Artifact.actsAs_writeDocuments artifacts
    (Path.canHold_join isName_pseudocodeFolder outDir).1).bind fun documents =>
      ActsAs.store.bind fun later => (ActsAs.ofExcept _).bind fun name =>
        (Artifact.actsAs_writeIndex artifacts outDir pseudocodeFolder source name).bind
          fun index => (ActsAs.tell notice).bind fun _ => ActsAs.pure _).of_eq
            (funext fun files => ?_)
  rw [Store.carryOutIn_append]
  generalize htarget : Path.join outDir pseudocodeFolder = target
  -- the working directory is asked for after the documents, which leave it as it was
  have hdir : (files.carryOutIn target
      (Artifact.documentSteps artifacts target)).files.workingDir = files.workingDir :=
    (Store.keeps_carryOutIn files target _).workingDir
  cases hfirst : (files.carryOutIn target
      (Artifact.documentSteps artifacts target)).failure with
  | some failure =>
      rw [Progress.andThen_of_failure hfirst, Progress.outcome, Progress.give_of_failure hfirst]
      simp only [Effect.andThen, Effect.ofProgress, Progress.give_of_failure hfirst]
  | none =>
      have hpaths := Artifact.paths_of_documentSteps (Store.written_carryOutIn_of_done hfirst)
      rw [Progress.andThen_of_done hfirst]
      simp only [Effect.andThen, Effect.ofProgress, Effect.reading,
        Progress.give_of_done hfirst, hdir, Artifact.indexStep]
      cases hname : moduleName files.workingDir source root with
      | error failure => simp [Except.map, Store.carryOut, Progress.outcome, Progress.give]
      | ok name =>
          simp only [Except.map, Store.carryOut_singleton]
          generalize hlast : (files.carryOutIn target
            (Artifact.documentSteps artifacts target)).files.put _ _ = last
          cases hfailure : last.failure with
          | some failure => simp [Progress.outcome, Progress.give, hfailure]
          | none =>
              have hwritten := Store.written_put_of_done (hlast ▸ hfailure)
              rw [hlast] at hwritten
              simp [Progress.outcome, Progress.give, hfailure, hwritten, hpaths]

/-- A source file that is converted has its turn. -/
theorem actsAs_convertFile (parse : Parser) (outDir root source : String) :
    ActsAs (convertFile parse outDir root source) fun files =>
      (turn parse .pseudocode outDir root files source).outcome := by
  have hwrite : ∀ artifacts : List Artifact, ActsAs
      (if artifacts.isEmpty then pure []
      else do
        let documents ← Artifact.writeDocuments artifacts outDir pseudocodeFolder
        let name ← Action.ofExcept (moduleName (← Action.store).workingDir source root)
        let index ← Artifact.writeIndex artifacts outDir pseudocodeFolder source name
        Action.tell (.timing ("[TIME] " ++ source ++ ": " ++ toString artifacts.length
          ++ " method(s) in "))
        return documents ++ [index]) fun files =>
        if artifacts.isEmpty then (.ok [], files)
        else (files.carryOutIn (Path.join outDir pseudocodeFolder)
          (Artifact.documentSteps artifacts (Path.join outDir pseudocodeFolder) ++
            [Artifact.indexStep artifacts files.workingDir (Path.join outDir pseudocodeFolder)
              root source])).outcome := by
    intro artifacts
    split_ifs
    · exact ActsAs.pure []
    · exact actsAs_writeShown artifacts outDir root source _
  refine ((ActsAs.tell _).bind fun _ => (actsAs_methodArtifacts parse source).bind hwrite).of_eq
    (funext fun files => ?_)
  rw [Effect.reading_ok_andThen]
  simp only [Effect.andThen, Effect.reading, turn]
  cases examine parse .pseudocode files source with
  | error failure => rfl
  | ok artifacts =>
      by_cases hempty : artifacts.isEmpty
      · simp [steps, hempty, Progress.outcome, Progress.give]
      · simp [steps, hempty, Mode.folder]

/-- A source file that is shown whole has its turn. -/
theorem actsAs_snapshotFile (parse : Parser) (outDir root source : String) :
    ActsAs (snapshotFile outDir source) fun files =>
      (turn parse .classes outDir root files source).outcome := by
  refine ((ActsAs.tell _).bind fun _ => ActsAs.store.bind fun files =>
    (ActsAs.ofExcept (files.readText source)).bind fun text =>
      Artifact.actsAs_writeDocuments [Artifact.ofFile source
        (Text.splitLines (Text.normalizeNewlines text))]
          (Path.canHold_join isName_classFolder outDir).1).of_eq (funext fun files => ?_)
  rw [Effect.reading_ok_andThen]
  simp only [Effect.andThen, Effect.reading, turn, examine]
  cases files.readText source with
  | error failure => rfl
  | ok text =>
      have hsteps : (Artifact.documentSteps [Artifact.ofFile source
          (Text.splitLines (Text.normalizeNewlines text))]
          (Path.join outDir classFolder)).isEmpty = false := rfl
      simp only [bind, Except.bind, pure, Except.pure, steps, Mode.folder, hsteps]
      exact (Progress.outcome_eq_give fun hdone =>
        Artifact.paths_of_documentSteps (Store.written_carryOutIn_of_done hdone)).symm

/-- The steps of a converted source file end with its index. -/
theorem steps_pseudocode {workingDir outDir root source name : String}
    {artifacts : List Artifact} {documents : List (String × FileContent)}
    (hartifacts : artifacts ≠ [])
    (hdocuments : Artifact.documentSteps artifacts (Path.join outDir pseudocodeFolder) =
      documents.map fun file => .ok (Path.join (Path.join outDir pseudocodeFolder) file.1, file.2))
    (hname : moduleName workingDir source root = .ok name) :
    steps .pseudocode workingDir outDir root source artifacts =
      (documents ++ [(Artifact.indexName source name ++ ".json",
        FileContent.text (Artifact.index artifacts source).write)]).map fun file =>
          .ok (Path.join (Path.join outDir Mode.pseudocode.folder) file.1, file.2) := by
  simp only [steps, List.isEmpty_iff, if_neg hartifacts, Mode.folder, hdocuments,
    Artifact.indexStep, hname, List.map_append]
  rfl

/-- The turn of a source file is done if its steps give files whose names the folder of
the mode takes once it is made. -/
theorem turn_of_takes {parse : Parser} {mode : Mode} {outDir root source : String}
    {files widened : Store} {place : Place} {artifacts : List Artifact}
    {contents : List (String × FileContent)}
    (hexamine : examine parse mode files source = .ok artifacts)
    (hsteps : steps mode files.workingDir outDir root source artifacts =
      contents.map fun file => .ok (Path.join (Path.join outDir mode.folder) file.1, file.2))
    (hcontents : contents ≠ [])
    (hmade : files.makeDirectories (Path.join outDir mode.folder) = .ok widened)
    (hplace : widened.DirectoryAt (Path.join outDir mode.folder) place)
    (hnames : ∀ file ∈ contents, widened.Takes place file.1) :
    turn parse mode outDir root files source =
      ⟨contents.map fun file => (Path.join (Path.join outDir mode.folder) file.1, file.2), none,
        widened.insertIn place contents⟩ := by
  have hempty : ¬ (contents.map fun file => (.ok (Path.join (Path.join outDir mode.folder) file.1,
      file.2) : Step)).isEmpty := by
    simpa using hcontents
  rw [turn, hexamine]
  simp only [hsteps, if_neg hempty, Store.carryOutIn_of_made hmade,
    Store.carryOut_join hplace contents hnames]

/-- The summaries of a source file, which leave the files alone. -/
def summaryEffect (parse : Parser) (source : String) : Effect (List ClassSummary) :=
  .reading fun files => (unitAt parse files source).map (·.summaries)

theorem actsAs_summarizeFile (parse : Parser) (source : String) :
    ActsAs (summarizeFile parse source) (summaryEffect parse source) := by
  refine ((actsAs_readUnit parse source).bind fun unit => ActsAs.pure _).of_eq
    (funext fun files => ?_)
  simp only [Effect.andThen, Effect.reading, summaryEffect]
  cases unitAt parse files source <;> rfl

end Run

end JavaSketch
