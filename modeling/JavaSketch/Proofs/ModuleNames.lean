import JavaSketch.Proofs.Outputs

/-!
# Module names below a root

A module name is made from a path in four steps: the path and the root are
normalised as seen from the working directory, the names they have in common are
left out, the extension is cut off, and dots take the place of slashes.  Sources
whose names have no dots of their own keep apart in all of them.

**Invariant.**  The names of a normal form are not empty and have no slash, so
cutting the normal form again gives them back.

**Results.**
* `normalNames_joinChars`: names below a directory are put behind the names of
  its normal form.
* `relativeChars_joinChars`: from a directory to a path below it leads that path.
* `stemChars_path`: the path without its extension.
* `dottedName_injective`: a module name tells the source.
* `moduleName_separates`: the module names of two sources below a root.
-/

namespace JavaSketch

namespace Text

theorem joinWith_concat (sep : Char) {front : List (List Char)} (hfront : front ≠ [])
    (last : List Char) :
    joinWith sep (front ++ [last]) = joinWith sep front ++ sep :: last := by
  induction front with
  | nil => exact absurd rfl hfront
  | cons first rest ih =>
      cases rest with
      | nil => rfl
      | cons next rest =>
          have hrest := ih (List.cons_ne_nil next rest)
          simp only [List.cons_append, joinWith] at hrest ⊢
          rw [hrest, List.append_assoc, List.cons_append]

theorem map_joinWith (f : Char → Char) (sep : Char) (all : List (List Char)) :
    (joinWith sep all).map f = joinWith (f sep) (all.map (List.map f)) := by
  induction all with
  | nil => rfl
  | cons first rest ih =>
      cases rest with
      | nil => rfl
      | cons next rest =>
          simp only [List.map_cons, joinWith, List.map_append] at ih ⊢
          rw [ih]

/-- Texts without a separator are told by their join. -/
theorem join_singleton_injective (sep : Char) {texts others : List String}
    (htexts : texts ≠ []) (hothers : others ≠ []) (h : ∀ text ∈ texts, sep ∉ text.toList)
    (h' : ∀ text ∈ others, sep ∉ text.toList)
    (hjoin : join (String.singleton sep) texts = join (String.singleton sep) others) :
    texts = others := by
  have hchars := congrArg String.toList hjoin
  rw [toList_join_singleton, toList_join_singleton] at hchars
  have hpieces := congrArg (pieces sep) hchars
  rw [pieces_joinWith (by simpa using htexts) (by simpa using h),
    pieces_joinWith (by simpa using hothers) (by simpa using h')] at hpieces
  exact List.map_injective_iff.mpr (fun _ _ => String.toList_inj.mp) hpieces

end Text

namespace Path

/-! ### Joining -/

theorem isAbsolute_joinChars (base path : List Char) :
    isAbsolute (joinChars base path) = (isAbsolute path || isAbsolute base) := by
  unfold joinChars
  split_ifs with hpath hslash
  · simp [hpath]
  · rcases eq_or_ne base [] with rfl | hbase
    · simp [isAbsolute]
    · simp [isAbsolute_append hbase, hpath]
  · have hbase : base ≠ [] := fun hempty => hslash (Or.inl hempty)
    simp [isAbsolute_append hbase, hpath]

theorem joinChars_ne_nil {base path : List Char} (h : base ≠ [] ∨ path ≠ []) :
    joinChars base path ≠ [] := by
  unfold joinChars
  split_ifs with hpath
  · rintro rfl
    exact absurd hpath (by decide)
  · simpa [or_iff_not_imp_left] using h
  · simp

theorem joinChars_of_relative {base path : List Char} (hbase : base ≠ [])
    (hpath : isAbsolute path = false) :
    joinChars base path = base ++ if base.getLast? = some '/' then path else '/' :: path := by
  simp only [joinChars, hpath, hbase, false_or, Bool.false_eq_true, if_false]
  split_ifs <;> rfl

theorem joinChars_assoc {root : List Char} (hroot : root ≠ []) (workingDir path : List Char) :
    joinChars workingDir (joinChars root path) = joinChars (joinChars workingDir root) path := by
  obtain ⟨front, hfront⟩ := exists_joinChars_eq workingDir root
  have hne : joinChars workingDir root ≠ [] := joinChars_ne_nil (Or.inr hroot)
  have hlast : (joinChars workingDir root).getLast? = root.getLast? := by
    rw [hfront, List.getLast?_append, List.getLast?_eq_some_getLast hroot, Option.some_or]
  cases hpath : isAbsolute path with
  | true =>
      rw [joinChars_of_absolute hpath, joinChars_of_absolute hpath, joinChars_of_absolute hpath]
  | false =>
      rw [joinChars_of_relative hroot hpath, joinChars_of_relative hne hpath, hlast,
        joinChars_append hroot]

/-! ### Normal forms -/

variable {absolute : Bool} {done : List (List Char)}

theorem pushName_nil (absolute : Bool) (done : List (List Char)) :
    pushName absolute done [] = done := by
  simp [pushName]

theorem pushName_of_isName {name : String} (h : IsName name) :
    pushName absolute done name.toList = name.toList :: done := by
  have hne : name.toList ≠ [] := by simpa using h.ne_empty
  have hhere : name.toList ≠ here := fun heq => h.ne_here (String.toList_inj.mp heq)
  have habove : name.toList ≠ above := fun heq => h.ne_above (String.toList_inj.mp heq)
  simp [pushName, hne, hhere, habove]

theorem foldl_pushName {below : List String} (h : ∀ name ∈ below, IsName name) :
    (below.map String.toList).foldl (pushName absolute) done =
      (below.map String.toList).reverse ++ done := by
  induction below generalizing done with
  | nil => rfl
  | cons name below ih =>
      rw [List.map_cons, List.foldl_cons, pushName_of_isName (h name List.mem_cons_self),
        ih fun other hother => h other (List.mem_cons_of_mem name hother),
        List.reverse_cons, List.append_assoc, List.singleton_append]

/-- The names of a joined path are taken in after those of the directory, with an
empty name between them at most. -/
theorem foldl_names_joinChars {base path : List Char} (hbase : base ≠ [])
    (hpath : isAbsolute path = false) :
    (names (joinChars base path)).foldl (pushName absolute) done =
      (names path).foldl (pushName absolute) ((names base).foldl (pushName absolute) done) := by
  rw [joinChars_of_relative hbase hpath]
  split_ifs with hlast
  · obtain ⟨head, rfl⟩ := List.getLast?_eq_some_iff.mp hlast
    have hnames : names (head ++ ['/']) = names head ++ [[]] :=
      Text.pieces_concat_self '/' head
    rw [hnames, names, ← List.append_cons, Text.pieces_append_separated, List.foldl_append,
      List.foldl_append, List.foldl_cons, pushName_nil]
    rfl
  · rw [names, Text.pieces_append_separated, List.foldl_append]
    rfl

/-- Whether a name could stand between the slashes of a normal form. -/
def IsPart (name : List Char) : Prop :=
  name ≠ [] ∧ '/' ∉ name

theorem isPart_above : IsPart above :=
  ⟨by decide, by decide⟩

theorem isPart_of_mem_pushName {name : List Char} (hslash : '/' ∉ name)
    (hdone : ∀ part ∈ done, IsPart part) :
    ∀ part ∈ pushName absolute done name, IsPart part := by
  intro part hpart
  unfold pushName at hpart
  by_cases hskip : name = [] ∨ name = here
  · rw [if_pos hskip] at hpart
    exact hdone part hpart
  rw [if_neg hskip] at hpart
  by_cases habove : name = above
  · rw [if_pos habove] at hpart
    cases done with
    | nil =>
        cases absolute with
        | true => exact absurd hpart List.not_mem_nil
        | false => exact List.mem_singleton.mp hpart ▸ isPart_above
    | cons last rest =>
        dsimp only at hpart
        split_ifs at hpart
        · rcases List.mem_cons.mp hpart with rfl | hmem
          · exact isPart_above
          · exact hdone part hmem
        · exact hdone part (List.mem_cons_of_mem last hpart)
  · rw [if_neg habove] at hpart
    rcases List.mem_cons.mp hpart with rfl | hmem
    · exact ⟨fun hempty => hskip (Or.inl hempty), hslash⟩
    · exact hdone part hmem

theorem isPart_of_mem_foldl {all : List (List Char)} (hall : ∀ name ∈ all, '/' ∉ name)
    (hdone : ∀ part ∈ done, IsPart part) :
    ∀ part ∈ all.foldl (pushName absolute) done, IsPart part := by
  induction all generalizing done with
  | nil => exact hdone
  | cons name all ih =>
      exact ih (fun other hother => hall other (List.mem_cons_of_mem name hother))
        (isPart_of_mem_pushName (hall name List.mem_cons_self) hdone)

theorem isPart_of_mem_normalNames {path part : List Char} (h : part ∈ normalNames path) :
    IsPart part := by
  refine isPart_of_mem_foldl (fun name hname hslash => ?_) (by simp) part
    (List.mem_reverse.mp h)
  exact (Text.mem_of_mem_pieces hname hslash).2 rfl

theorem leadingSlashes_cases {path : List Char} (h : isAbsolute path) :
    leadingSlashes path = ['/'] ∨ leadingSlashes path = ['/', '/'] := by
  unfold leadingSlashes
  split
  · exact Or.inl rfl
  · exact Or.inr rfl
  · exact Or.inl rfl
  · next hone =>
      obtain ⟨c, cs, rfl⟩ : ∃ c cs, path = c :: cs := by
        cases path with
        | nil => simp [isAbsolute] at h
        | cons c cs => exact ⟨c, cs, rfl⟩
      obtain rfl : c = '/' := by simpa [isAbsolute] using h
      exact absurd rfl (hone cs)

/-- A normal form that is cut again gives the names it was made from. -/
theorem filter_names_normalChars {path : List Char} (h : isAbsolute path) :
    (names (normalChars path)).filter (· ≠ []) = normalNames path := by
  have hparts : (names (Text.joinWith '/' (normalNames path))).filter (· ≠ []) =
      normalNames path := by
    by_cases hempty : normalNames path = []
    · rw [hempty]
      rfl
    · rw [names, Text.pieces_joinWith hempty
        fun part hpart => (isPart_of_mem_normalNames hpart).2]
      exact List.filter_eq_self.mpr fun part hpart =>
        decide_eq_true (isPart_of_mem_normalNames hpart).1
  have hslash : ∀ cs, (names ('/' :: cs)).filter (· ≠ []) = (names cs).filter (· ≠ []) := by
    intro cs
    rw [names, Text.pieces_cons_self]
    rfl
  unfold normalChars
  rcases leadingSlashes_cases h with hlead | hlead
  · simp only [hlead, List.cons_append, List.nil_append, reduceCtorEq, if_false]
    rw [hslash, hparts]
  · simp only [hlead, List.cons_append, List.nil_append, reduceCtorEq, if_false]
    rw [hslash, hslash, hparts]

theorem absoluteNames_eq {workingDir : List Char} (h : isAbsolute workingDir)
    (path : List Char) :
    absoluteNames workingDir path = normalNames (joinChars workingDir path) :=
  filter_names_normalChars (by rw [isAbsolute_joinChars, h, Bool.or_true])

/-! ### Paths of names -/

variable {below : List String}

/-- The path that leads through names, one directory after the other. -/
def through (below : List String) : List Char :=
  Text.joinWith '/' (below.map String.toList)

theorem names_through (hne : below ≠ []) (h : ∀ name ∈ below, IsName name) :
    names (through below) = below.map String.toList := by
  refine Text.pieces_joinWith (by simpa using hne) fun piece hpiece => ?_
  obtain ⟨name, hname, rfl⟩ := List.mem_map.mp hpiece
  exact (h name hname).noSlash

theorem isAbsolute_through (h : ∀ name ∈ below, IsName name) :
    isAbsolute (through below) = false := by
  refine Bool.eq_false_iff.mpr fun habsolute => ?_
  cases below with
  | nil => simp [through, Text.joinWith, isAbsolute] at habsolute
  | cons name rest =>
      -- the first of the names would be empty
      have hnames := names_through (List.cons_ne_nil name rest) h
      obtain ⟨cs, hcs⟩ := List.head?_eq_some_iff.mp (beq_iff_eq.mp habsolute)
      rw [hcs, names, Text.pieces_cons_self, List.map_cons] at hnames
      exact (h name List.mem_cons_self).ne_empty
        (String.toList_eq_nil_iff.mp (List.cons.inj hnames).1.symm)

/-- Names below a directory are put behind the names of its normal form. -/
theorem normalNames_joinChars {base : List Char} (hbase : base ≠ []) (hne : below ≠ [])
    (h : ∀ name ∈ below, IsName name) :
    normalNames (joinChars base (through below)) =
      normalNames base ++ below.map String.toList := by
  have hrelative := isAbsolute_through h
  unfold normalNames
  rw [isAbsolute_joinChars, hrelative, Bool.false_or, foldl_names_joinChars hbase hrelative,
    names_through hne h, foldl_pushName h, List.reverse_append, List.reverse_reverse]

theorem dropCommon_append (front back : List (List Char)) :
    dropCommon front (front ++ back) = ([], back) := by
  induction front with
  | nil => cases back <;> rfl
  | cons name front ih => simp [dropCommon, ih]

/-- From a directory to a path below it leads that path. -/
theorem relativeChars_joinChars {workingDir root : List Char} (hdir : isAbsolute workingDir)
    (hroot : root ≠ []) (hne : below ≠ []) (h : ∀ name ∈ below, IsName name) :
    relativeChars workingDir (joinChars root (through below)) root = through below := by
  have hbase : joinChars workingDir root ≠ [] := joinChars_ne_nil (Or.inr hroot)
  have hsteps : relativeNames workingDir (joinChars root (through below)) root =
      below.map String.toList := by
    unfold relativeNames
    rw [absoluteNames_eq hdir, absoluteNames_eq hdir, joinChars_assoc hroot,
      normalNames_joinChars hbase hne h, dropCommon_append]
    rfl
  unfold relativeChars
  rw [hsteps, if_neg (by simpa using hne)]
  rfl

/-! ### Extensions -/

/-- The stem of a name ends before the only dot of the name. -/
theorem stemOfName_append {stem extension : List Char} (hstem : stem ≠ [])
    (hdot : '.' ∉ stem) (hextension : '.' ∉ extension) :
    stemOfName (stem ++ '.' :: extension) = stem := by
  have hdrop : (stem ++ '.' :: extension).reverse.dropWhile (· != '.') =
      '.' :: stem.reverse := by
    rw [List.reverse_append, List.reverse_cons, List.append_assoc,
      List.dropWhile_append_of_pos fun c hc => ?_]
    · simp
    · have hne : c ≠ '.' := by
        rintro rfl
        exact hextension (List.mem_reverse.mp hc)
      simpa using hne
  obtain ⟨c, cs, rfl⟩ := List.exists_cons_of_ne_nil hstem
  have hany : (c :: cs).reverse.any (· != '.') = true := by
    refine List.any_eq_true.mpr ⟨c, by simp, ?_⟩
    have hne : c ≠ '.' := fun heq => hdot (heq ▸ List.mem_cons_self)
    simpa using hne
  rw [stemOfName, hdrop]
  simp only [hany, if_true, List.reverse_reverse]

theorem stemChars_of_slash_not_mem {name : List Char} (h : '/' ∉ name) :
    stemChars name = stemOfName name := by
  have hbase : baseChars name = name := by
    rw [baseChars, names, Text.pieces_of_not_mem h]
    rfl
  simp [stemChars, headChars, hbase]

theorem stemChars_append {name : List Char} (h : '/' ∉ name) (head : List Char) :
    stemChars (head ++ '/' :: name) = head ++ '/' :: stemOfName name := by
  rw [stemChars, headChars_append h, baseChars_append h, List.append_assoc,
    List.singleton_append]

end Path

/-! ### Sources below a root -/

/-- Whether a text is a name without dots. -/
structure IsPlainName (name : String) : Prop where
  ne_empty : name ≠ ""
  noSlash : '/' ∉ name.toList
  noDot : '.' ∉ name.toList

instance (name : String) : Decidable (IsPlainName name) :=
  decidable_of_iff (name ≠ "" ∧ '/' ∉ name.toList ∧ '.' ∉ name.toList)
    ⟨fun h => ⟨h.1, h.2.1, h.2.2⟩, fun h => ⟨h.ne_empty, h.noSlash, h.noDot⟩⟩

theorem IsPlainName.isName {name : String} (h : IsPlainName name) : Path.IsName name := by
  refine ⟨h.noSlash, h.ne_empty, ?_, ?_⟩
  all_goals
    rintro rfl
    exact absurd h.noDot (by decide)

/-- A source file below a root, told by the folders that lead to it and by its
name without the extension.  No dot stands in these. -/
@[ext]
structure PlainSource where
  folders : List String
  stem : String
  plain : ∀ name ∈ folders ++ [stem], IsPlainName name

namespace PlainSource

variable {source : PlainSource}

/-- The folders and the stem. -/
def names (source : PlainSource) : List String :=
  source.folders ++ [source.stem]

/-- The folders and the name of the file. -/
def pathNames (source : PlainSource) : List String :=
  source.folders ++ [source.stem ++ ".java"]

/-- The path of a source file below its root. -/
def path (source : PlainSource) : String :=
  Text.join "/" source.pathNames

/-- The names of a source file with dots between them. -/
def dottedName (source : PlainSource) : String :=
  Text.join "." source.names

theorem isPlainName_stem (source : PlainSource) : IsPlainName source.stem :=
  source.plain source.stem (by simp)

theorem isName_of_mem_pathNames {name : String} (h : name ∈ source.pathNames) :
    Path.IsName name := by
  rcases List.mem_append.mp h with hfolder | hfile
  · exact (source.plain name (List.mem_append_left _ hfolder)).isName
  · obtain rfl := List.mem_singleton.mp hfile
    exact Path.isName_append source.isPlainName_stem.noSlash (by decide) (by decide)

theorem toList_path (source : PlainSource) :
    source.path.toList = Path.through source.pathNames :=
  Text.toList_join_singleton '/' source.pathNames

/-- The path without its extension leads through the same folders to the stem. -/
theorem stemChars_path (source : PlainSource) :
    Path.stemChars (Path.through source.pathNames) = Path.through source.names := by
  have hslash : '/' ∉ (source.stem ++ ".java").toList :=
    (isName_of_mem_pathNames (List.mem_append_right _ List.mem_cons_self)).noSlash
  have hstem : Path.stemOfName (source.stem ++ ".java").toList = source.stem.toList := by
    rw [String.toList_append]
    exact Path.stemOfName_append (by simpa using source.isPlainName_stem.ne_empty)
      source.isPlainName_stem.noDot (by decide)
  unfold Path.through pathNames names
  simp only [List.map_append, List.map_singleton]
  by_cases hfolders : source.folders.map String.toList = []
  · rw [hfolders, List.nil_append, List.nil_append, Text.joinWith, Text.joinWith,
      Path.stemChars_of_slash_not_mem hslash, hstem]
  · rw [Text.joinWith_concat '/' hfolders, Text.joinWith_concat '/' hfolders,
      Path.stemChars_append hslash, hstem]

theorem map_through_names (source : PlainSource) :
    (Path.through source.names).map (fun c => if c = '/' then '.' else c) =
      source.dottedName.toList := by
  rw [Path.through, Text.map_joinWith, if_pos rfl, dottedName,
    show "." = String.singleton '.' from rfl, Text.toList_join_singleton]
  congr 1
  refine (List.map_congr_left fun chars hchars => ?_).trans (List.map_id _)
  obtain ⟨name, hname, rfl⟩ := List.mem_map.mp hchars
  refine (List.map_congr_left fun c hc => if_neg ?_).trans (List.map_id _)
  rintro rfl
  exact (source.plain name hname).noSlash hc

/-- Without dots in the names, the module name tells the source. -/
theorem dottedName_injective {first second : PlainSource}
    (h : first.dottedName = second.dottedName) : first = second := by
  have hnames : first.names = second.names :=
    Text.join_singleton_injective '.' (by simp [names]) (by simp [names])
      (fun name hname => (first.plain name hname).noDot)
      (fun name hname => (second.plain name hname).noDot) h
  obtain ⟨hfolders, hstem⟩ := List.append_inj' hnames rfl
  exact PlainSource.ext hfolders (List.singleton_injective hstem)

/-- The module name of a source below a root is made from its names. -/
theorem moduleName_join {workingDir root : String}
    (hdir : Path.isAbsolute workingDir.toList) (hroot : root ≠ "") (source : PlainSource) :
    moduleName workingDir (Path.join root source.path) root = .ok source.dottedName := by
  have hchars : root.toList ≠ [] := by simpa using hroot
  have hpath : (Path.join root source.path).toList =
      Path.joinChars root.toList (Path.through source.pathNames) := by
    rw [Path.join, String.toList_ofList, toList_path]
  have hrelative := Path.relativeChars_joinChars hdir hchars
    (show source.pathNames ≠ [] by simp [pathNames]) fun _ => isName_of_mem_pathNames
  have hne : Path.join root source.path ≠ "" := by
    intro hempty
    rw [hempty] at hpath
    exact Path.joinChars_ne_nil (Or.inl hchars) hpath.symm
  simp only [moduleName, if_neg hroot, if_neg hne, hpath, hrelative]
  rw [stemChars_path, map_through_names, String.ofList_toList]

end PlainSource

/-- **Names of modules.**  The root may be any path that is not empty, seen from a
working directory whose path is absolute.  Below it, the module name of a source is
its folders and its stem with dots between them and has no slash, and sources with
different paths have different module names. -/
theorem moduleName_separates {workingDir root : String}
    (hdir : Path.isAbsolute workingDir.toList) (hroot : root ≠ "")
    {first second : PlainSource} (hne : first.path ≠ second.path) :
    moduleName workingDir (Path.join root first.path) root = .ok (Text.join "." first.names) ∧
      moduleName workingDir (Path.join root second.path) root =
        .ok (Text.join "." second.names) ∧
      Text.join "." first.names ≠ Text.join "." second.names ∧
      '/' ∉ (Text.join "." first.names).toList ∧
      '/' ∉ (Text.join "." second.names).toList := by
  have hfirst := first.moduleName_join hdir hroot
  have hsecond := second.moduleName_join hdir hroot
  refine ⟨hfirst, hsecond, fun heq => ?_, slash_not_mem_moduleName hfirst,
    slash_not_mem_moduleName hsecond⟩
  exact hne (congrArg PlainSource.path (PlainSource.dottedName_injective heq))

/-- A root with doubled slashes, a single dot and a double dot, and two packages. -/
theorem moduleName_separates_twoPackages :
    Path.isAbsolute "/w".toList ∧ "./s//t/.." ≠ "" ∧
      (⟨["a"], "Foo", by decide⟩ : PlainSource).path ≠
        (⟨["a", "b"], "Foo", by decide⟩ : PlainSource).path ∧
      moduleName "/w" "./s//t/../a/Foo.java" "./s//t/.." = .ok "a.Foo" ∧
      moduleName "/w" "./s//t/../a/b/Foo.java" "./s//t/.." = .ok "a.b.Foo" :=
  have hne : (⟨["a"], "Foo", by decide⟩ : PlainSource).path ≠
      (⟨["a", "b"], "Foo", by decide⟩ : PlainSource).path := by decide
  have hdir : Path.isAbsolute "/w".toList := by decide
  have hroot : "./s//t/.." ≠ "" := by decide
  have hnames := moduleName_separates hdir hroot hne
  ⟨hdir, hroot, hne, hnames.1, hnames.2.1⟩

end JavaSketch
