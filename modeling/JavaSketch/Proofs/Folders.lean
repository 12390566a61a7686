import JavaSketch.Proofs.Paths
import JavaSketch.Proofs.Progress
import Mathlib.Data.List.Induction

/-!
# Names in a folder

A folder may be given by a path of any form: from the root or not, with names that lead
up, with slashes at its end.  Whatever the form, a name put behind it leads to that name
in the directory, the directory of the longer path is the folder again, and to make a
folder that is there changes nothing.

**Argument.**  A path with a slash in it is followed up to the slash, which needs a
directory there, and then on.  Slashes at the end of a path only ask for that directory,
so they can be left out.

**Results.**
* `DirectoryAt.resolve_join`: where a name in a folder leads.
* `DirectoryAt.directory_join`: the directory of such a name.
* `DirectoryAt.makeDirectories`: making a folder that is there.
* `put_join`, `carryOut_join`: what writing files into a folder does.
-/

namespace JavaSketch

namespace Path

/-- A path without slashes at its end, unless it has nothing else. -/
def withoutSlashes (path : List Char) : List Char :=
  let stripped := (path.reverse.dropWhile (· == '/')).reverse
  if stripped = [] then path else stripped

theorem directoryChars_eq (path : List Char) :
    directoryChars path = withoutSlashes (headChars path) :=
  rfl

/-- A path has no slash, or its head ends with the last one. -/
theorem headChars_cases (path : List Char) :
    headChars path = [] ∨
      ∃ head base, path = head ++ '/' :: base ∧ headChars path = head ++ ['/'] := by
  by_cases hslash : '/' ∈ path
  · obtain ⟨back, front, hreverse, hback⟩ :=
      List.eq_append_cons_of_mem (List.mem_reverse.mpr hslash)
    have hpath : path = front.reverse ++ '/' :: back.reverse := by
      rw [← List.reverse_reverse path, hreverse]
      simp
    refine Or.inr ⟨front.reverse, back.reverse, hpath, ?_⟩
    rw [hpath, headChars_append (by simpa using hback)]
  · refine Or.inl ?_
    rw [headChars, baseChars, names, Text.pieces_of_not_mem hslash]
    simp

end Path

namespace Store

variable {store : Store} {path folder name : String} {place target : Place}

/-- Whether a path leads to a directory at a place. -/
structure DirectoryAt (store : Store) (path : String) (place : Place) : Prop where
  resolve : store.resolve path = .ok place
  entry : store.entry place = some .directory

theorem isDirectory_iff : store.isDirectory path ↔ ∃ place, store.DirectoryAt path place := by
  unfold isDirectory find?
  cases hresolve : store.resolve path with
  | error fault => exact ⟨nofun, fun ⟨_, hplace⟩ => nomatch hresolve.symm.trans hplace.resolve⟩
  | ok place =>
      constructor
      · intro hdirectory
        refine ⟨place, hresolve, ?_⟩
        split at hdirectory
        · assumption
        · cases hdirectory
      · rintro ⟨other, hother⟩
        obtain rfl := Except.ok.inj (hresolve.symm.trans hother.resolve)
        simp [hother.entry]

theorem DirectoryAt.ne_empty (h : store.DirectoryAt path place) : path ≠ "" := by
  rintro rfl
  cases h.resolve

/-- A directory stays one at its place. -/
theorem DirectoryAt.of_keeps {later : Store} (h : store.DirectoryAt path place)
    (hkeeps : Keeps store later) : later.DirectoryAt path place :=
  ⟨resolve_of_keeps hkeeps h.resolve, hkeeps.directory h.entry⟩

section Slashes

/-- The names that lead up to a slash with some path before it. -/
def namesBefore (store : Store) (head : List Char) : List String :=
  if head = [] then [""] else store.namesOf (String.ofList head)

theorem resolve_ofList {head : List Char} (h : head ≠ []) :
    store.resolve (String.ofList head) = store.follow [] (store.namesBefore head) := by
  have hne : String.ofList head ≠ "" := by simpa using h
  rw [resolve, if_neg hne, namesBefore, if_neg h]

/-- A path is followed up to a slash and then on. -/
theorem resolve_slash (store : Store) (head rest : List Char) :
    store.resolve (String.ofList (head ++ '/' :: rest)) =
      (store.follow [] (store.namesBefore head)).bind fun place =>
        store.follow place ((Text.pieces '/' rest).map String.ofList) := by
  have hne : String.ofList (head ++ '/' :: rest) ≠ "" := by simp
  have hnames : store.namesOf (String.ofList (head ++ '/' :: rest)) =
      store.namesBefore head ++ (Text.pieces '/' rest).map String.ofList := by
    unfold namesOf namesBefore Text.split Path.join
    rw [String.toList_ofList, String.toList_ofList]
    split
    · rename_i hnil
      subst hnil
      rw [List.nil_append, Path.joinChars_of_absolute rfl, Text.pieces_cons_self]
      rfl
    · rename_i hhead
      rw [Path.joinChars_append hhead, Text.pieces_append_separated, List.map_append]
      simp [namesOf, Text.split, Path.join]
  rw [resolve, if_neg hne, hnames, follow_append]

theorem follow_empty_eq_ok_iff :
    store.follow place [""] = .ok target ↔
      target = place ∧ store.entry place = some .directory := by
  rw [follow]
  cases store.entry place with
  | none => simp
  | some entry =>
      cases entry with
      | file content => simp
      | directory =>
          simp only [true_or, if_true, follow, Except.ok.injEq, and_true]
          exact eq_comm

/-- Only a directory is left by a name. -/
theorem entry_of_follow_cons {rest : List String}
    (h : store.follow place (name :: rest) = .ok target) :
    store.entry place = some .directory := by
  rw [follow] at h
  cases hentry : store.entry place with
  | none => simp [hentry] at h
  | some entry =>
      cases entry with
      | directory => rfl
      | file content => simp [hentry] at h

/-- A slash at the end asks for a directory before it. -/
theorem directoryAt_slash_iff {head : List Char} :
    store.DirectoryAt (String.ofList (head ++ ['/'])) place ↔
      store.follow [] (store.namesBefore head) = .ok place ∧
        store.entry place = some .directory := by
  have hresolve := store.resolve_slash head []
  rw [Text.pieces_nil, List.map_singleton, String.ofList_nil] at hresolve
  constructor
  · rintro ⟨hplace, hentry⟩
    rw [hresolve] at hplace
    cases hfollow : store.follow [] (store.namesBefore head) with
    | error fault => simp [hfollow, Except.bind] at hplace
    | ok before =>
        rw [hfollow] at hplace
        obtain ⟨rfl, _⟩ := follow_empty_eq_ok_iff.mp hplace
        exact ⟨rfl, hentry⟩
  · rintro ⟨hplace, hentry⟩
    refine ⟨?_, hentry⟩
    rw [hresolve, hplace]
    exact follow_empty_eq_ok_iff.mpr ⟨rfl, hentry⟩

/-- Slashes at the end of the path of a directory can be left out. -/
theorem DirectoryAt.withoutSlashes {path : List Char}
    (h : store.DirectoryAt (String.ofList path) place) :
    store.DirectoryAt (String.ofList (Path.withoutSlashes path)) place := by
  induction path using List.reverseRecOn with
  | nil => exact h
  | append_singleton init last ih =>
      unfold Path.withoutSlashes at ih ⊢
      rw [List.reverse_concat, List.dropWhile_cons]
      by_cases hlast : last = '/'
      · subst hlast
        simp only [beq_self_eq_true, if_true]
        split
        · exact h
        · rename_i hstripped
          have hinit : init ≠ [] := by
            rintro rfl
            exact hstripped rfl
          rw [if_neg hstripped] at ih
          obtain ⟨hfollow, hentry⟩ := directoryAt_slash_iff.mp h
          exact ih ⟨(resolve_ofList hinit).trans hfollow, hentry⟩
      · simpa [hlast] using h

/-- The directory of a path that leads somewhere is a directory, if it is not left open. -/
theorem directoryAt_directoryChars {path : List Char}
    (h : store.resolve (String.ofList path) = .ok target) :
    Path.directoryChars path = [] ∨
      ∃ place, store.DirectoryAt (String.ofList (Path.directoryChars path)) place := by
  rw [Path.directoryChars_eq]
  rcases Path.headChars_cases path with hhead | ⟨head, base, rfl, hhead⟩
  · rw [hhead]
    exact Or.inl rfl
  · rw [resolve_slash] at h
    cases hfollow : store.follow [] (store.namesBefore head) with
    | error fault => simp [hfollow, Except.bind] at h
    | ok place =>
        rw [hfollow] at h
        obtain ⟨piece, rest, hpieces⟩ :=
          List.exists_cons_of_ne_nil (Text.pieces_ne_nil '/' base)
        simp only [Except.bind, hpieces, List.map_cons] at h
        refine Or.inr ⟨place, ?_⟩
        rw [hhead]
        exact (directoryAt_slash_iff.mpr
          ⟨hfollow, entry_of_follow_cons h⟩).withoutSlashes

end Slashes

section Join

/-- A name that is not too long leads to it in a directory. -/
theorem follow_name (hname : Path.IsName name) (hshort : name.utf8ByteSize ≤ longestName)
    (hentry : store.entry place = some .directory) :
    store.follow place [name] = .ok (place ++ [name]) := by
  simp [follow, hentry, hname.ne_empty, hname.ne_here, hname.ne_above, Nat.not_lt.mpr hshort]

/-- Both ways to put a name behind a folder lead on from its place. -/
theorem DirectoryAt.exists_head (h : store.DirectoryAt folder place)
    (hname : Path.IsName name) :
    ∃ head, (Path.join folder name).toList = head ++ '/' :: name.toList ∧
      store.follow [] (store.namesBefore head) = .ok place := by
  obtain ⟨head, hjoin, ⟨hhead, hfolder⟩ | hfolder⟩ := Path.exists_toList_join h.ne_empty hname
  · refine ⟨head, hjoin, ?_⟩
    rw [← resolve_ofList hhead, ← hfolder, String.ofList_toList]
    exact h.resolve
  · refine ⟨head, hjoin, (directoryAt_slash_iff.mp ?_).1⟩
    rwa [← hfolder, String.ofList_toList]

/-- A name in a folder leads to that name in the directory. -/
theorem DirectoryAt.resolve_join (h : store.DirectoryAt folder place)
    (hname : Path.IsName name) (hshort : name.utf8ByteSize ≤ longestName) :
    store.resolve (Path.join folder name) = .ok (place ++ [name]) := by
  obtain ⟨head, hjoin, hhead⟩ := h.exists_head hname
  rw [← String.ofList_toList (s := Path.join folder name), hjoin, resolve_slash, hhead,
    Text.pieces_of_not_mem hname.noSlash, List.map_singleton, String.ofList_toList]
  exact follow_name hname hshort h.entry

/-- The head of a name in a folder is the folder. -/
theorem DirectoryAt.headChars_join (h : store.DirectoryAt folder place)
    (hname : Path.IsName name) :
    Path.headChars (Path.join folder name).toList ≠ [] ∧
      store.DirectoryAt (String.ofList (Path.headChars (Path.join folder name).toList))
        place := by
  obtain ⟨head, hjoin, hhead⟩ := h.exists_head hname
  rw [hjoin, Path.headChars_append hname.noSlash]
  exact ⟨by simp, directoryAt_slash_iff.mpr ⟨hhead, h.entry⟩⟩

/-- The directory of a name in a folder is the folder. -/
theorem DirectoryAt.directory_join (h : store.DirectoryAt folder place)
    (hname : Path.IsName name) :
    store.DirectoryAt (Path.directory (Path.join folder name)) place := by
  rw [Path.directory, Path.directoryChars_eq]
  exact (h.headChars_join hname).2.withoutSlashes

theorem baseName_join {folder name : String} (hfolder : folder ≠ "") (hname : Path.IsName name) :
    Path.baseName (Path.join folder name) = name := by
  obtain ⟨head, hjoin, _⟩ := Path.exists_toList_join hfolder hname
  rw [Path.baseName, hjoin, Path.baseChars_append hname.noSlash, String.ofList_toList]

end Join

/-- A directory cannot be made where one is. -/
theorem DirectoryAt.makeDirectory_ne_ok (h : store.DirectoryAt path place) (made : Store) :
    store.makeDirectory path ≠ .ok made := by
  rw [← String.ofList_toList (s := path)] at h
  have hstripped := h.withoutSlashes
  unfold Path.withoutSlashes at hstripped
  unfold makeDirectory
  simp only at hstripped ⊢
  have hpath : (if (path.toList.reverse.dropWhile (· == '/')).reverse = [] then path
      else String.ofList (path.toList.reverse.dropWhile (· == '/')).reverse) =
      String.ofList (if (path.toList.reverse.dropWhile (· == '/')).reverse = []
        then path.toList else (path.toList.reverse.dropWhile (· == '/')).reverse) := by
    split <;> simp
  rw [hpath, hstripped.resolve]
  simp [hstripped.entry]

/-- What a directory lies in is there, if its path says what that is. -/
theorem DirectoryAt.found_above (h : store.DirectoryAt path place) :
    (splitLast path.toList).1 = [] ∨ (splitLast path.toList).2 = [] ∨
      (store.find? (String.ofList (splitLast path.toList).1)).isSome := by
  have hfound : ∀ {chars : List Char} {other : Place},
      store.DirectoryAt (String.ofList chars) other →
        (store.find? (String.ofList chars)).isSome := by
    intro chars other hother
    rw [find?, hother.resolve]
    simp [hother.entry]
  rw [← String.ofList_toList (s := path)] at h
  by_cases hbase : Path.baseChars path.toList = []
  · -- a path that ends in a slash is looked at without it
    rw [Store.splitLast, if_pos hbase]
    dsimp only
    rcases directoryAt_directoryChars h.resolve with hnil | ⟨above, habove⟩
    · rw [hnil]
      exact Or.inr (Or.inl rfl)
    · rcases directoryAt_directoryChars habove.resolve with hnil | ⟨higher, hhigher⟩
      · exact Or.inl hnil
      · exact Or.inr (Or.inr (hfound hhigher))
  · rw [Store.splitLast, if_neg hbase]
    dsimp only
    rcases directoryAt_directoryChars h.resolve with hnil | ⟨above, habove⟩
    · exact Or.inl hnil
    · exact Or.inr (Or.inr (hfound habove))

/-- To make a folder that is there changes nothing. -/
theorem DirectoryAt.makeDirectories (h : store.DirectoryAt path place) :
    store.makeDirectories path = .ok store := by
  have hthere : ¬ ((Store.splitLast path.toList).1 ≠ [] ∧ (Store.splitLast path.toList).2 ≠ [] ∧
      (store.find? (String.ofList (Store.splitLast path.toList).1)).isNone) := by
    rintro ⟨hhead, htail, hnone⟩
    rcases h.found_above with hnil | hnil | hsome
    · exact hhead hnil
    · exact htail hnil
    · rw [Option.isNone_iff_eq_none.mp hnone] at hsome
      cases hsome
  rw [Store.makeDirectories, makeDirectoriesTo]
  simp only [if_neg hthere]
  rw [if_neg fun hmissing => hthere hmissing.1]
  cases hmade : store.makeDirectory path with
  | ok made => exact absurd hmade (h.makeDirectory_ne_ok made)
  | error failure => simp [isDirectory_iff.mpr ⟨place, h⟩]

section Writing

/-- Whether a directory takes a file of some name: it is a name and not too long, and not
that of a directory in it. -/
structure Takes (store : Store) (place : Place) (name : String) : Prop where
  isName : Path.IsName name
  short : name.utf8ByteSize ≤ longestName
  free : store.entry (place ++ [name]) ≠ some .directory

instance : Decidable (store.Takes place name) :=
  decidable_of_iff
    (('/' ∉ name.toList ∧ name ≠ "" ∧ name ≠ "." ∧ name ≠ "..") ∧
      name.utf8ByteSize ≤ longestName ∧ store.entry (place ++ [name]) ≠ some .directory)
    ⟨fun ⟨⟨hslash, hempty, hhere, habove⟩, hshort, hfree⟩ =>
      ⟨⟨hslash, hempty, hhere, habove⟩, hshort, hfree⟩,
      fun ⟨⟨hslash, hempty, hhere, habove⟩, hshort, hfree⟩ =>
        ⟨⟨hslash, hempty, hhere, habove⟩, hshort, hfree⟩⟩

/-- A directory still takes a name when a file was put under another or the same. -/
theorem Takes.insert {other : String} (h : store.Takes place name) (content : FileContent) :
    (store.insert (place ++ [other]) (.file content)).Takes place name := by
  refine ⟨h.isName, h.short, ?_⟩
  by_cases hsame : place ++ [name] = place ++ [other]
  · rw [hsame, entry_insert_self _ (by simp)]
    simp
  · rw [entry_insert_of_ne hsame]
    exact h.free

/-- A name that a folder takes can be written there. -/
theorem writablePlace_join (h : store.DirectoryAt folder place) (hname : store.Takes place name) :
    store.writablePlace (Path.join folder name) = .ok (place ++ [name]) := by
  obtain ⟨hhead, hparent⟩ := h.headChars_join hname.isName
  have hne : Path.join folder name ≠ "" := by
    intro hempty
    have hbase := baseName_join h.ne_empty hname.isName
    rw [hempty] at hbase
    exact hname.isName.ne_empty hbase.symm
  have hresolved : store.resolve (parentOf (Path.join folder name)) = .ok place := by
    rw [parentOf, if_neg hhead]
    exact hparent.resolve
  rw [writablePlace, if_neg hne, hresolved, baseName_join h.ne_empty hname.isName,
    if_neg hname.isName.ne_empty, h.resolve_join hname.isName hname.short]
  have hfree := hname.free
  simp only [bind, Except.bind, pure, Except.pure]

/-- A file that is put into a folder is there, and nothing else changes. -/
theorem put_join (h : store.DirectoryAt folder place) (hname : store.Takes place name)
    (content : FileContent) :
    store.put (Path.join folder name) content =
      ⟨[(Path.join folder name, content)], none,
        store.insert (place ++ [name]) (.file content)⟩ := by
  rw [put, prepare, (h.directory_join hname.isName).makeDirectories, Progress.idle_andThen, write,
    writeFile, writablePlace_join h hname]

/-- If the folder can be made, that is what happens first. -/
theorem carryOutIn_of_made {widened : Store} (h : store.makeDirectories folder = .ok widened)
    (steps : List Step) :
    store.carryOutIn folder steps = widened.carryOut steps := by
  rw [carryOutIn, prepare, h, Progress.idle_andThen]

/-- A folder is still there when something was written. -/
theorem DirectoryAt.carryOut (h : store.DirectoryAt folder place)
    (steps : List Step) :
    (store.carryOut steps).files.DirectoryAt folder place :=
  h.of_keeps (related_carryOut (R := fun earlier _ later => Keeps earlier later) Keeps.refl
    Keeps.trans (fun store file _ => keeps_put store file.1 file.2) store)

/-- A store with some files put into the directory at a place, one after the other. -/
def insertIn (store : Store) (place : Place) (contents : List (String × FileContent)) : Store :=
  contents.foldl (fun later file => later.insert (place ++ [file.1]) (.file file.2)) store

/-- Files are written into a folder in their order if it takes their names. -/
theorem carryOut_join (h : store.DirectoryAt folder place)
    (contents : List (String × FileContent))
    (hnames : ∀ file ∈ contents, store.Takes place file.1) :
    store.carryOut (contents.map fun file => .ok (Path.join folder file.1, file.2)) =
      ⟨contents.map fun file => (Path.join folder file.1, file.2), none,
        store.insertIn place contents⟩ := by
  induction contents generalizing store with
  | nil => rfl
  | cons file rest ih =>
      have hname := hnames file List.mem_cons_self
      -- the folder stays, and it still takes the other names
      have hrest := ih (h.of_keeps (keeps_insert hname.free file.2))
        fun other hother => (hnames other (List.mem_cons_of_mem file hother)).insert file.2
      rw [List.map_cons, Store.carryOut, put_join h hname, Progress.andThen_of_done rfl, hrest]
      rfl

end Writing

end Store
end JavaSketch
