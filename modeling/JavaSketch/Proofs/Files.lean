import JavaSketch.Store
import Mathlib.Tactic.SplitIfs

/-!
# Files that stay

Making directories and writing files take nothing away: directories stay
directories and files stay files, so that a path that led somewhere leads to the
same place afterwards.  Making directories leaves the content of every file as
it was; writing a file leaves that of every other file.

**Relations.**
* `Widens earlier later`: the later store has all that the earlier one has, and
  what else it has are directories.
* `Keeps earlier later`: what was a directory or a file before is one still,
  with what content ever.

**Results.**
* `widens_of_makeDirectories_eq_ok`: making directories widens a store.
* `exists_of_writeFile_eq_ok`: writing a file replaces what is at one place.
* `resolve_of_keeps`: a path goes on leading to the same place.
-/

namespace JavaSketch
namespace Store

/-- The later store has all entries of the earlier one and besides them only
directories. -/
structure Widens (earlier later : Store) : Prop where
  workingDir : later.workingDir = earlier.workingDir
  entry : ∀ {place entry}, earlier.entry place = some entry → later.entry place = some entry
  file : ∀ {place content}, later.entry place = some (.file content) →
    earlier.entry place = some (.file content)

/-- What is a directory or a file in the earlier store is one in the later. -/
structure Keeps (earlier later : Store) : Prop where
  workingDir : later.workingDir = earlier.workingDir
  directory : ∀ {place}, earlier.entry place = some .directory →
    later.entry place = some .directory
  file : ∀ {place content}, earlier.entry place = some (.file content) →
    ∃ new, later.entry place = some (.file new)

namespace Widens

theorem refl (store : Store) : Widens store store :=
  ⟨rfl, id, id⟩

theorem trans {first second third : Store} (h : Widens first second)
    (h' : Widens second third) : Widens first third :=
  ⟨h'.workingDir.trans h.workingDir, h'.entry ∘ h.entry, h.file ∘ h'.file⟩

theorem keeps {earlier later : Store} (h : Widens earlier later) : Keeps earlier later :=
  ⟨h.workingDir, h.entry, fun hfile => ⟨_, h.entry hfile⟩⟩

end Widens

namespace Keeps

theorem refl (store : Store) : Keeps store store :=
  (Widens.refl store).keeps

theorem trans {first second third : Store} (h : Keeps first second)
    (h' : Keeps second third) : Keeps first third where
  workingDir := h'.workingDir.trans h.workingDir
  directory := h'.directory ∘ h.directory
  file hfile := by
    obtain ⟨_, hsecond⟩ := h.file hfile
    exact h'.file hsecond

end Keeps

section Insert

variable {store : Store} {place other : Place}

theorem lookup_filter_of_ne {entries : List (Place × Entry)} (h : other ≠ place) :
    (entries.filter (·.1 != place)).lookup other = entries.lookup other := by
  induction entries with
  | nil => rfl
  | cons head rest ih =>
      obtain ⟨key, value⟩ := head
      by_cases hkey : key = place
      · subst hkey
        simp [List.lookup_cons, ih, beq_eq_false_iff_ne.mpr h]
      · rw [List.filter_cons_of_pos (by simpa using hkey), List.lookup_cons,
          List.lookup_cons, ih]

theorem entry_insert_of_ne (h : other ≠ place) (entry : Entry) :
    (store.insert place entry).entry other = store.entry other := by
  unfold Store.entry insert
  split
  · rfl
  · rw [List.lookup_cons, beq_eq_false_iff_ne.mpr h]
    exact lookup_filter_of_ne h

theorem ne_nil_of_entry_ne_directory (h : store.entry place ≠ some .directory) :
    place ≠ [] := by
  rintro rfl
  exact h rfl

/-- A new directory where nothing was widens a store. -/
theorem widens_insert (h : store.entry place = none) :
    Widens store (store.insert place .directory) := by
  have hother : store.entry place ≠ some .directory := by simp [h]
  have hplace := ne_nil_of_entry_ne_directory hother
  refine ⟨rfl, fun {at_ entry} hentry => ?_, fun {at_ content} hfile => ?_⟩
  · have hne : at_ ≠ place := by
      rintro rfl
      simp [h] at hentry
    rw [entry_insert_of_ne hne, hentry]
  · by_cases hne : at_ = place
    · subst hne
      simp [entry_insert_self store hplace] at hfile
    · rwa [entry_insert_of_ne hne] at hfile

/-- A file where no directory was keeps directories and files. -/
theorem keeps_insert (h : store.entry place ≠ some .directory) (content : FileContent) :
    Keeps store (store.insert place (.file content)) := by
  have hplace := ne_nil_of_entry_ne_directory h
  refine ⟨rfl, fun {at_} hdirectory => ?_, fun {at_ old} hfile => ?_⟩
  · have hne : at_ ≠ place := by
      rintro rfl
      exact h hdirectory
    rw [entry_insert_of_ne hne, hdirectory]
  · by_cases hne : at_ = place
    · subst hne
      exact ⟨content, entry_insert_self store hplace _⟩
    · exact ⟨old, by rw [entry_insert_of_ne hne, hfile]⟩

end Insert

section Follow

variable {earlier later : Store}

theorem follow_append (store : Store) (names more : List String) (place : Place) :
    store.follow place (names ++ more) =
      (store.follow place names).bind fun target => store.follow target more := by
  induction names generalizing place with
  | nil => rfl
  | cons name rest ih =>
      simp only [List.cons_append, follow]
      cases store.entry place with
      | none => rfl
      | some entry =>
          cases entry with
          | file content => rfl
          | directory =>
              simp only [ih]
              split_ifs <;> rfl

theorem follow_of_keeps (h : Keeps earlier later) {names : List String}
    {place target : Place} (hfollow : earlier.follow place names = .ok target) :
    later.follow place names = .ok target := by
  induction names generalizing place with
  | nil => exact hfollow
  | cons name rest ih =>
      simp only [follow] at hfollow ⊢
      cases hentry : earlier.entry place with
      | none => simp [hentry] at hfollow
      | some entry =>
          cases entry with
          | file content => simp [hentry] at hfollow
          | directory =>
              simp only [hentry] at hfollow
              simp only [h.directory hentry]
              split_ifs at hfollow ⊢
              · exact ih hfollow
              · exact ih hfollow
              · exact ih hfollow

theorem namesOf_of_keeps (h : Keeps earlier later) (path : String) :
    later.namesOf path = earlier.namesOf path := by
  simp [namesOf, h.workingDir]

/-- A path that leads to a place goes on leading there. -/
theorem resolve_of_keeps (h : Keeps earlier later) {path : String} {place : Place}
    (hresolve : earlier.resolve path = .ok place) : later.resolve path = .ok place := by
  unfold resolve at hresolve ⊢
  split_ifs at hresolve ⊢
  rw [namesOf_of_keeps h]
  exact follow_of_keeps h hresolve

end Follow

section Changes

variable {store later : Store} {path : String}

theorem widens_of_makeDirectory_eq_ok (h : store.makeDirectory path = .ok later) :
    Widens store later := by
  unfold makeDirectory at h
  simp only at h
  split at h
  · cases h
  · split at h
    · cases h
    · rename_i place _ hentry
      obtain rfl := Except.ok.inj h
      exact widens_insert hentry

theorem widens_of_makeDirectoriesTo_eq_ok {depth : Nat}
    (h : store.makeDirectoriesTo depth path = .ok later) : Widens store later := by
  induction depth generalizing store later path with
  | zero => simp [makeDirectoriesTo] at h
  | succ depth ih =>
      simp only [makeDirectoriesTo] at h
      split at h
      · cases h
      · rename_i prepared hprepared
        have habove : Widens store prepared := by
          split at hprepared
          · split at hprepared
            · obtain rfl := Except.ok.inj hprepared
              exact Widens.refl store
            · exact ih hprepared
          · obtain rfl := Except.ok.inj hprepared
            exact Widens.refl store
        refine habove.trans ?_
        split at h
        · obtain rfl := Except.ok.inj h
          exact Widens.refl prepared
        · split at h
          · rename_i made hmade
            obtain rfl := Except.ok.inj h
            exact widens_of_makeDirectory_eq_ok hmade
          · split at h
            · obtain rfl := Except.ok.inj h
              exact Widens.refl prepared
            · cases h

/-- Making directories adds directories and nothing else. -/
theorem widens_of_makeDirectories_eq_ok (h : store.makeDirectories path = .ok later) :
    Widens store later :=
  widens_of_makeDirectoriesTo_eq_ok h

theorem of_writablePlace_eq_ok {place : Place} (h : store.writablePlace path = .ok place) :
    store.resolve path = .ok place ∧ store.entry place ≠ some .directory := by
  by_cases hpath : path = ""
  · simp [writablePlace, hpath, throw, throwThe, MonadExceptOf.throw, bind, Except.bind] at h
  by_cases hname : Path.baseName path = ""
  · cases hparent : store.resolve (parentOf path) <;>
      simp [writablePlace, hpath, hname, hparent, throw, throwThe, MonadExceptOf.throw, bind,
        Except.bind] at h
  cases hparent : store.resolve (parentOf path) with
  | error fault => simp [writablePlace, hpath, hparent, bind, Except.bind] at h
  | ok parent =>
      cases hresolve : store.resolve path with
      | error fault =>
          simp [writablePlace, hpath, hname, hparent, hresolve, bind, Except.bind] at h
      | ok target =>
          simp only [writablePlace, hpath, hname, hparent, hresolve, bind, Except.bind,
            if_false] at h
          split at h
          · cases h
          · rename_i hentry
            obtain rfl := Except.ok.inj h
            exact ⟨rfl, hentry⟩

/-- Writing a file puts it at the place its path leads to, where no directory is. -/
theorem exists_of_writeFile_eq_ok {content : FileContent}
    (h : store.writeFile path content = .ok later) :
    ∃ place, store.resolve path = .ok place ∧ store.entry place ≠ some .directory ∧
      later = store.insert place (.file content) := by
  unfold writeFile at h
  cases hwritable : store.writablePlace path with
  | error fault => simp [hwritable] at h
  | ok place =>
      simp only [hwritable, Except.ok.injEq] at h
      obtain ⟨hresolve, hentry⟩ := of_writablePlace_eq_ok hwritable
      exact ⟨place, hresolve, hentry, h.symm⟩

end Changes

end Store
end JavaSketch
