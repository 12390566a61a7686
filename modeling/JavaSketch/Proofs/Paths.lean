import JavaSketch.Discovery
import JavaSketch.Proofs.Files
import JavaSketch.Proofs.LineFeeds
import Mathlib.Data.List.Nodup

/-!
# Where paths lead

A path that ends in a name leads to the place of that name in the directory that
the rest of the path leads to.  So paths to one directory lead to different
places if they end in different names.

**Results.**
* `exists_of_resolve_join`: where the path of a name below a directory leads.
* `exists_of_resolve_sourcePath`: a source path leads to a place whose name ends
  like that of a source.
-/

namespace JavaSketch

namespace Path

/-- Whether a text names an entry of a directory: it has no slash and is not one
of the names that lead elsewhere. -/
structure IsName (name : String) : Prop where
  noSlash : '/' ∉ name.toList
  ne_empty : name ≠ ""
  ne_here : name ≠ "."
  ne_above : name ≠ ".."

theorem isName_of_length {name : String} (hslash : '/' ∉ name.toList)
    (hlength : 2 < name.length) : IsName name := by
  refine ⟨hslash, ?_, ?_, ?_⟩
  all_goals
    rintro rfl
    exact absurd hlength (by decide)

/-- A base with an extension behind it is a name. -/
theorem isName_append {base extension : String} (hbase : '/' ∉ base.toList)
    (hextension : '/' ∉ extension.toList) (hlength : 2 < extension.length) :
    IsName (base ++ extension) := by
  refine isName_of_length ?_ ?_
  · simp [hbase, hextension]
  · rw [String.length_append]
    omega

theorem isAbsolute_append {path : List Char} (h : path ≠ []) (more : List Char) :
    isAbsolute (path ++ more) = isAbsolute path := by
  obtain ⟨c, cs, rfl⟩ := List.exists_cons_of_ne_nil h
  rfl

theorem joinChars_append {path : List Char} (h : path ≠ []) (base more : List Char) :
    joinChars base (path ++ more) = joinChars base path ++ more := by
  unfold joinChars
  rw [isAbsolute_append h]
  split_ifs <;> simp

/-- Joining puts something before a path and keeps the path itself. -/
theorem exists_joinChars_eq (base path : List Char) :
    ∃ front, joinChars base path = front ++ path := by
  unfold joinChars
  split_ifs
  · exact ⟨[], rfl⟩
  · exact ⟨base, rfl⟩
  · exact ⟨base ++ ['/'], by simp⟩

/-- Whether a path can be put before a name with a slash between. -/
def CanHold (path : String) : Prop :=
  path ≠ "" ∧ path.toList.getLast? ≠ some '/'

theorem canHold_join {folder : String} (h : IsName folder) (base : String) :
    CanHold (join base folder) := by
  have hne : folder.toList ≠ [] := by simpa using h.ne_empty
  obtain ⟨front, hfront⟩ := exists_joinChars_eq base.toList folder.toList
  have hjoin : (join base folder).toList = front ++ folder.toList := by
    rw [join, String.toList_ofList, hfront]
  refine ⟨?_, ?_⟩
  · intro hempty
    simp [hempty, hne] at hjoin
  · rw [hjoin, List.getLast?_append, List.getLast?_eq_some_getLast hne, Option.some_or]
    exact fun hlast => h.noSlash (Option.some.inj hlast ▸ List.getLast_mem hne)

theorem toList_join {base name : String} (hbase : CanHold base) (hname : IsName name) :
    (join base name).toList = base.toList ++ '/' :: name.toList := by
  have habsolute : isAbsolute name.toList = false := by
    cases hcs : name.toList with
    | nil => rfl
    | cons c cs =>
        have hc : c ≠ '/' := by
          rintro rfl
          exact hname.noSlash (by simp [hcs])
        simpa [isAbsolute] using hc
  have hne : base.toList ≠ [] := by simpa using hbase.1
  simp [join, joinChars, habsolute, hne, hbase.2]

theorem join_right_injective {base first second : String} (hbase : CanHold base)
    (hfirst : IsName first) (hsecond : IsName second)
    (h : join base first = join base second) : first = second := by
  have hlists := congrArg String.toList h
  rw [toList_join hbase hfirst, toList_join hbase hsecond] at hlists
  exact String.toList_inj.mp (by simpa using hlists)

theorem nodup_map_join {base : String} {names : List String} (hbase : CanHold base)
    (hnames : ∀ name ∈ names, IsName name) (h : names.Nodup) :
    (names.map (join base)).Nodup :=
  h.map_on fun first hfirst second hsecond =>
    join_right_injective hbase (hnames first hfirst) (hnames second hsecond)

theorem baseChars_append {base : List Char} (h : '/' ∉ base) (head : List Char) :
    baseChars (head ++ '/' :: base) = base := by
  rw [baseChars, names, Text.pieces_append_separated, Text.pieces_of_not_mem h]
  simp

theorem headChars_append {base : List Char} (h : '/' ∉ base) (head : List Char) :
    headChars (head ++ '/' :: base) = head ++ ['/'] := by
  rw [headChars, baseChars_append h, List.append_cons head, List.length_append,
    Nat.add_sub_cancel_right, List.take_left]

/-- A name below a folder stands behind the last slash, which the folder may end with. -/
theorem exists_toList_join {folder name : String} (hfolder : folder ≠ "")
    (hname : IsName name) :
    ∃ head, (join folder name).toList = head ++ '/' :: name.toList ∧
      (head ≠ [] ∧ folder.toList = head ∨ folder.toList = head ++ ['/']) := by
  by_cases hlast : folder.toList.getLast? = some '/'
  · obtain ⟨head, hhead⟩ := List.getLast?_eq_some_iff.mp hlast
    have habsolute : isAbsolute name.toList = false := by
      refine Bool.eq_false_iff.mpr fun habsolute => hname.noSlash ?_
      exact List.mem_of_mem_head? (beq_iff_eq.mp habsolute)
    refine ⟨head, ?_, Or.inr hhead⟩
    simp [join, joinChars, habsolute, hhead]
  · exact ⟨folder.toList, toList_join ⟨hfolder, hlast⟩ hname,
      Or.inl ⟨by simpa using hfolder, rfl⟩⟩

theorem directory_join_ne_empty {folder name : String} (hfolder : folder ≠ "")
    (hname : IsName name) : directory (join folder name) ≠ "" := by
  obtain ⟨head, hjoin, _⟩ := exists_toList_join hfolder hname
  intro hempty
  have hchars : directoryChars (join folder name).toList = [] := by
    have h := congrArg String.toList hempty
    rwa [directory, String.toList_ofList] at h
  simp only [directoryChars, hjoin, headChars_append hname.noSlash] at hchars
  split_ifs at hchars with hstripped
  · simp at hchars
  · exact hstripped hchars

end Path

namespace Store

variable {store : Store}

theorem namesOf_join {base name : String} (hbase : Path.CanHold base)
    (hname : Path.IsName name) :
    store.namesOf (Path.join base name) = store.namesOf base ++ [name] := by
  have hne : base.toList ≠ [] := by simpa using hbase.1
  have hjoin : (Path.join store.workingDir (Path.join base name)).toList =
      (Path.join store.workingDir base).toList ++ '/' :: name.toList := by
    have h := Path.toList_join hbase hname
    simp only [Path.join, String.toList_ofList] at h ⊢
    rw [h, Path.joinChars_append hne]
  unfold namesOf Text.split
  rw [hjoin, Text.pieces_append_separated, Text.pieces_of_not_mem hname.noSlash,
    List.map_append]
  simp

/-- A name at the end of a path leads to what it names in the directory before. -/
theorem exists_of_follow_concat {names : List String} {name : String} {place target : Place}
    (hname : Path.IsName name) (h : store.follow place (names ++ [name]) = .ok target) :
    ∃ directory, store.follow place names = .ok directory ∧
      target = directory ++ [name] := by
  rw [follow_append] at h
  cases hnames : store.follow place names with
  | error fault => simp [hnames, Except.bind] at h
  | ok directory =>
      refine ⟨directory, rfl, ?_⟩
      simp only [hnames, Except.bind, follow, hname.ne_empty, hname.ne_here, hname.ne_above,
        or_self, if_false] at h
      split at h
      · cases h
      · cases h
      · split at h
        · cases h
        · exact (Except.ok.inj h).symm

/-- The path of a name below a directory leads to that name in the directory. -/
theorem exists_of_resolve_join {base name : String} {place : Place}
    (hbase : Path.CanHold base) (hname : Path.IsName name)
    (h : store.resolve (Path.join base name) = .ok place) :
    ∃ directory, store.resolve base = .ok directory ∧ place = directory ++ [name] := by
  unfold resolve at h
  split_ifs at h
  rw [namesOf_join hbase hname] at h
  obtain ⟨directory, hdirectory, hplace⟩ := exists_of_follow_concat hname h
  exact ⟨directory, by rw [resolve, if_neg hbase.1, hdirectory], hplace⟩

/-- Paths of different names below a directory lead to different places. -/
theorem ne_of_resolve_join {base first second : String} {place other : Place}
    (hbase : Path.CanHold base) (hfirst : Path.IsName first) (hsecond : Path.IsName second)
    (hne : first ≠ second) (hplace : store.resolve (Path.join base first) = .ok place)
    (hother : store.resolve (Path.join base second) = .ok other) : place ≠ other := by
  obtain ⟨directory, hdirectory, rfl⟩ := exists_of_resolve_join hbase hfirst hplace
  obtain ⟨directory', hdirectory', rfl⟩ := exists_of_resolve_join hbase hsecond hother
  obtain rfl := Except.ok.inj (hdirectory.symm.trans hdirectory')
  simpa using hne

/-- A source path leads to a place whose name ends like that of a source. -/
theorem exists_of_resolve_sourcePath {path : String} {place : Place}
    (hsource : isSourcePath path) (h : store.resolve path = .ok place) :
    ∃ directory name, place = directory ++ [name] ∧ isSourcePath name := by
  obtain ⟨front, hfront⟩ : ∃ front, path.toList = front ++ ".java".toList := by
    obtain ⟨front, hfront⟩ := List.isSuffixOf_iff_suffix.mp hsource
    exact ⟨front, hfront.symm⟩
  obtain ⟨start, hstart⟩ := Path.exists_joinChars_eq store.workingDir.toList path.toList
  have hbefore : (Path.join store.workingDir path).toList =
      (start ++ front) ++ ".java".toList := by
    rw [Path.join, String.toList_ofList, hstart, hfront, List.append_assoc]
  have hslash : '/' ∉ ".java".toList := by decide
  obtain ⟨init, last, first, rest, _, hextension, hpieces⟩ :=
    Text.exists_pieces_append '/' (start ++ front) ".java".toList
  rw [Text.pieces_of_not_mem hslash] at hextension
  obtain ⟨rfl, rfl⟩ := List.cons.inj hextension
  have hnames : store.namesOf path =
      init.map String.ofList ++ [String.ofList (last ++ ".java".toList)] := by
    unfold namesOf Text.split
    rw [hbefore, hpieces, List.map_append]
    rfl
  -- the extension has no slash, so the last name of the path ends with all of it
  have hlast : last ++ ".java".toList ∈ Text.pieces '/' (start ++ front ++ ".java".toList) := by
    rw [hpieces]
    exact List.mem_append_right init List.mem_cons_self
  have hname : Path.IsName (String.ofList (last ++ ".java".toList)) := by
    refine Path.isName_of_length ?_ ?_
    · rw [String.toList_ofList]
      exact fun hmem => (Text.mem_of_mem_pieces hlast hmem).2 rfl
    · rw [String.length_ofList, List.length_append]
      exact Nat.lt_add_left _ (by decide)
  unfold resolve at h
  split_ifs at h
  rw [hnames] at h
  obtain ⟨directory, _, hplace⟩ := exists_of_follow_concat hname h
  refine ⟨directory, _, hplace, ?_⟩
  have htoList : (String.ofList (last ++ ".java".toList)).toList = last ++ ".java".toList :=
    String.toList_ofList
  rw [isSourcePath, List.isSuffixOf_iff_suffix, htoList]
  exact List.suffix_append last _

end Store
end JavaSketch
