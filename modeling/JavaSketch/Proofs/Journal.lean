import JavaSketch.Proofs.Outputs

/-!
# The journal of a run

All that a run writes, in the order in which it is written, is its journal.  A file
holds what was last written to it, and what it held before if nothing was.

**Relation.**
* `Records earlier written later`: the later store is the earlier one after files
  were written in some order, with more directories.

**Results.**
* `records_carryOutIn`, `records_turns`: steps and turns record what they write.
* `find?_of_records`: a path written to leads to what was last written under it.
-/

namespace JavaSketch

open Syntax (Parser)

namespace Store

/-- What the file at a place holds. -/
def fileAt (store : Store) (place : Place) : Option FileContent :=
  match store.entry place with
  | some (.file content) => some content
  | _ => none

theorem fileAt_eq_some_iff {store : Store} {place : Place} {content : FileContent} :
    store.fileAt place = some content ↔ store.entry place = some (.file content) := by
  unfold fileAt
  cases store.entry place with
  | none => simp
  | some entry => cases entry <;> simp

theorem fileAt_of_widens {earlier later : Store} (h : Widens earlier later) (place : Place) :
    later.fileAt place = earlier.fileAt place := by
  refine Option.ext fun content => ?_
  simp only [fileAt_eq_some_iff]
  exact ⟨h.file, h.entry⟩

/-- Whether a path leads to a place. -/
def leadsTo (store : Store) (path : String) (place : Place) : Bool :=
  match store.resolve path with
  | .ok target => target == place
  | .error _ => false

theorem leadsTo_iff {store : Store} {path : String} {place : Place} :
    store.leadsTo path place = true ↔ store.resolve path = .ok place := by
  unfold leadsTo
  cases store.resolve path <;> simp

/-- What was last written to a place. -/
def lastWritten (store : Store) (place : Place) :
    List (String × FileContent) → Option FileContent
  | [] => none
  | (path, content) :: rest =>
      (store.lastWritten place rest).or
        (if store.leadsTo path place then some content else none)

section LastWritten

variable {store : Store} {place : Place} {written : List (String × FileContent)}

theorem lastWritten_append (first second : List (String × FileContent)) :
    store.lastWritten place (first ++ second) =
      (store.lastWritten place second).or (store.lastWritten place first) := by
  induction first with
  | nil => simp [lastWritten]
  | cons file rest ih => rw [List.cons_append, lastWritten, lastWritten, ih, Option.or_assoc]

theorem lastWritten_eq_none_iff :
    store.lastWritten place written = none ↔
      ∀ file ∈ written, store.resolve file.1 ≠ .ok place := by
  induction written with
  | nil => simp [lastWritten]
  | cons file rest ih =>
      rw [lastWritten, Option.or_eq_none_iff, ih, List.forall_mem_cons, and_comm]
      simp [← leadsTo_iff]

theorem exists_mem_of_lastWritten_eq_some {content : FileContent}
    (h : store.lastWritten place written = some content) :
    ∃ file ∈ written, file.2 = content ∧ store.resolve file.1 = .ok place := by
  induction written with
  | nil => simp [lastWritten] at h
  | cons file rest ih =>
      rw [lastWritten, Option.or_eq_some_iff] at h
      rcases h with hrest | ⟨_, hfile⟩
      · obtain ⟨other, hmem, hother⟩ := ih hrest
        exact ⟨other, List.mem_cons_of_mem file hmem, hother⟩
      · split_ifs at hfile with hleads
        exact ⟨file, List.mem_cons_self, Option.some.inj hfile, leadsTo_iff.mp hleads⟩

/-- What is written to a place stays unless something else is written there. -/
theorem lastWritten_of_last {before after : List (String × FileContent)}
    {file : String × FileContent} (hfile : store.resolve file.1 = .ok place)
    (hafter : ∀ other ∈ after, store.resolve other.1 ≠ .ok place) :
    store.lastWritten place (before ++ file :: after) = some file.2 := by
  rw [lastWritten_append, lastWritten, lastWritten_eq_none_iff.mpr hafter,
    if_pos (leadsTo_iff.mpr hfile)]
  rfl

theorem lastWritten_of_keeps {later : Store} (hkeeps : Keeps store later)
    (hresolved : ∀ file ∈ written, ∃ target, store.resolve file.1 = .ok target) :
    later.lastWritten place written = store.lastWritten place written := by
  induction written with
  | nil => rfl
  | cons file rest ih =>
      obtain ⟨target, htarget⟩ := hresolved file List.mem_cons_self
      have hleads : later.leadsTo file.1 place = store.leadsTo file.1 place := by
        unfold leadsTo
        rw [htarget, resolve_of_keeps hkeeps htarget]
      rw [lastWritten, lastWritten, hleads,
        ih fun other hmem => hresolved other (List.mem_cons_of_mem file hmem)]

end LastWritten

/-- The later store is the earlier one after files were written in some order, with
more directories. -/
structure Records (earlier : Store) (written : List (String × FileContent))
    (later : Store) : Prop where
  keeps : Keeps earlier later
  resolved : ∀ file ∈ written, ∃ place, later.resolve file.1 = .ok place
  fileAt : ∀ place,
    later.fileAt place = (later.lastWritten place written).or (earlier.fileAt place)

theorem Widens.records {earlier later : Store} (h : Widens earlier later) :
    Records earlier [] later :=
  ⟨h.keeps, by simp, fun place => by rw [fileAt_of_widens h, lastWritten, Option.none_or]⟩

namespace Records

theorem refl (store : Store) : Records store [] store :=
  (Widens.refl store).records

theorem trans {first second third : Store} {written written' : List (String × FileContent)}
    (h : Records first written second) (h' : Records second written' third) :
    Records first (written ++ written') third where
  keeps := h.keeps.trans h'.keeps
  resolved file hfile := by
    rcases List.mem_append.mp hfile with hbefore | hafter
    · obtain ⟨place, hplace⟩ := h.resolved file hbefore
      exact ⟨place, resolve_of_keeps h'.keeps hplace⟩
    · exact h'.resolved file hafter
  fileAt place := by
    -- the paths of the first part lead on to where they led, so their last one is the same
    rw [h'.fileAt, h.fileAt, lastWritten_append, lastWritten_of_keeps h'.keeps h.resolved,
      Option.or_assoc]

end Records

/-- Putting a file at the place of a path records it. -/
theorem records_insert {store : Store} {path : String} {place : Place}
    (hplace : store.resolve path = .ok place) (hentry : store.entry place ≠ some .directory)
    (content : FileContent) :
    Records store [(path, content)] (store.insert place (.file content)) := by
  have hkeeps := keeps_insert hentry content
  have hlater := resolve_of_keeps hkeeps hplace
  refine ⟨hkeeps, fun file hfile => ?_, fun other => ?_⟩
  · obtain rfl := List.mem_singleton.mp hfile
    exact ⟨place, hlater⟩
  · by_cases hother : other = place
    · subst hother
      have hleads := leadsTo_iff.mpr hlater
      have hinserted := entry_insert_self store (ne_nil_of_entry_ne_directory hentry)
        (.file content)
      simp [lastWritten, hleads, fileAt_eq_some_iff.mpr hinserted]
    · have hleads : (store.insert place (.file content)).leadsTo path other = false := by
        rw [Bool.eq_false_iff, ne_eq, leadsTo_iff, hlater]
        exact fun heq => hother (Except.ok.inj heq).symm
      simp [lastWritten, hleads, fileAt, entry_insert_of_ne hother]

theorem records_put (files : Store) (path : String) (content : FileContent) :
    Records files (files.put path content).written (files.put path content).files := by
  obtain ⟨widened, hwidens, ⟨failure, hput⟩ | ⟨place, hput, hplace, hentry⟩⟩ :=
    put_cases files path content
  · rw [hput]
    exact hwidens.records
  · rw [hput]
    exact hwidens.records.trans (records_insert hplace hentry content)

/-- Steps record what they write. -/
theorem records_carryOutIn (files : Store) (directory : String) (steps : List Step) :
    Records files (files.carryOutIn directory steps).written
      (files.carryOutIn directory steps).files :=
  related_carryOutIn Widens.records Records.trans
    (fun files file _ => records_put files file.1 file.2) files directory

/-- A path below a directory leads to what was last written under it. -/
theorem find?_of_records {earlier later : Store} {target : String}
    {before after : List (String × FileContent)} {file : String × FileContent}
    (htarget : Path.CanHold target)
    (houtput : ∀ other ∈ before ++ file :: after, IsOutput target other.1)
    (h : Records earlier (before ++ file :: after) later)
    (hlast : ∀ other ∈ after, other.1 ≠ file.1) :
    later.find? file.1 = some (.file file.2) := by
  have hmem : file ∈ before ++ file :: after := List.mem_append_right _ List.mem_cons_self
  obtain ⟨place, hplace⟩ := h.resolved file hmem
  have hafter : ∀ other ∈ after, later.resolve other.1 ≠ .ok place := by
    intro other hother hsame
    obtain ⟨name, hname, _, hpath⟩ := houtput file hmem
    obtain ⟨name', hname', _, hpath'⟩ :=
      houtput other (List.mem_append_right _ (List.mem_cons_of_mem file hother))
    have hne : name ≠ name' := by
      rintro rfl
      exact hlast other hother (hpath'.trans hpath.symm)
    rw [hpath] at hplace
    rw [hpath'] at hsame
    exact ne_of_resolve_join htarget hname hname' hne hplace hsame rfl
  have hfile : later.fileAt place = some file.2 := by
    rw [h.fileAt, lastWritten_of_last hplace hafter, Option.some_or]
  rw [find?, hplace]
  exact fileAt_eq_some_iff.mp hfile

/-- Paths that are written once lead to what was written. -/
theorem find?_of_records_of_nodup {earlier later : Store} {target : String}
    {written : List (String × FileContent)} (htarget : Path.CanHold target)
    (houtput : ∀ file ∈ written, IsOutput target file.1)
    (h : Records earlier written later) (hnodup : (written.map (·.1)).Nodup) :
    ∀ file ∈ written, later.find? file.1 = some (.file file.2) := by
  intro file hfile
  obtain ⟨before, after, rfl⟩ := List.append_of_mem hfile
  refine find?_of_records htarget houtput h fun other hother hsame => ?_
  rw [List.map_append, List.map_cons] at hnodup
  have hrest := (List.nodup_cons.mp (List.nodup_append.mp hnodup).2.1).1
  exact hrest (hsame ▸ List.mem_map_of_mem hother)

end Store

namespace Run

variable {parse : Parser} {mode : Mode} {outDir root : String} {files : Store}
  {sources : List String}

/-- What was written in the turn of a source file, in order. -/
def writtenIn (parse : Parser) (mode : Mode) (outDir root : String)
    (turn : String × Store) : List (String × FileContent) :=
  (Run.turn parse mode outDir root turn.2 turn.1).written

theorem writtenIn_mk (source : String) (before : Store) :
    writtenIn parse mode outDir root (source, before) =
      (Run.turn parse mode outDir root before source).written :=
  rfl

/-- What was written in the turns of some source files, in order. -/
def journal (parse : Parser) (mode : Mode) (outDir root : String) (files : Store)
    (sources : List String) : List (String × FileContent) :=
  (turns parse mode outDir root files sources).flatMap (writtenIn parse mode outDir root)

theorem records_turn (parse : Parser) (mode : Mode) (outDir root : String)
    (turn : String × Store) :
    Store.Records turn.2 (writtenIn parse mode outDir root turn)
      (Run.turn parse mode outDir root turn.2 turn.1).files := by
  unfold writtenIn
  rcases turn_cases parse mode outDir root turn.2 turn.1 with
    ⟨failure, _, hturn⟩ | ⟨artifacts, _, ⟨_, hturn⟩ | ⟨_, _, hturn⟩⟩
  · rw [hturn]
    exact Store.Records.refl turn.2
  · rw [hturn]
    exact Store.Records.refl turn.2
  · rw [hturn]
    exact Store.records_carryOutIn _ _ _

/-- Turns record what they write, one after the other. -/
theorem records_turns (parse : Parser) (mode : Mode) (outDir root : String) (files : Store)
    (sources : List String) :
    Store.Records files (journal parse mode outDir root files sources)
      (filesAfter parse mode outDir root files sources) := by
  unfold journal turns filesAfter
  induction sources generalizing files with
  | nil => exact Store.Records.refl files
  | cons source rest ih =>
      have hfirst := records_turn parse mode outDir root (source, files)
      rw [← files_outcome] at hfirst
      exact hfirst.trans (ih _)

end Run
end JavaSketch
