import JavaSketch.Artifact
import JavaSketch.Proofs.Paths
import Mathlib.Data.List.Nodup
import Mathlib.Data.List.Perm.Subperm
import Mathlib.Tactic.ByContra
import Std.Data.String.ToNat

/-!
# Names of documents

The documents of one call have different names, and each is a name in the folder
that the call writes to.

**Argument.**  A taken name has one numbered variant more than there are taken
names, and the variants are all different; so one of them is free.

**Results.**
* `firstFree_freshName`: a fresh name is the first that is not taken.
* `FirstFree.search`: which is what a search by numbers ends with.
* `firstFree_documentNames`: how the name of each document comes about.
* `nodup_documentNames`: the names of the documents of one call are different.
* `safe_of_mem_documentNames`: they have only characters that file names should have.
-/

namespace JavaSketch
namespace Artifact

/-- The variant of a name with a number behind it. -/
def variant (name : String) (number : Nat) : String :=
  name ++ "_" ++ toString (number + 1)

theorem variant_injective (name : String) : Function.Injective (variant name) := by
  intro first second h
  have hnumbers : Nat.repr (first + 1) = Nat.repr (second + 1) := by
    have hlists := congrArg String.toList h
    simp only [variant, String.toList_append, List.append_cancel_left_eq] at hlists
    exact String.toList_inj.mp hlists
  have := Nat.repr_injective hnumbers
  omega

/-- Not all variants of a name are taken. -/
theorem exists_variant_not_mem (taken : List String) (name : String) :
    ∃ number < taken.length + 1, variant name number ∉ taken := by
  by_contra hall
  have hsubset : (List.range (taken.length + 1)).map (variant name) ⊆ taken := by
    intro other hother
    obtain ⟨number, hnumber, rfl⟩ := List.mem_map.mp hother
    by_contra hfree
    exact hall ⟨number, List.mem_range.mp hnumber, hfree⟩
  have hnodup : ((List.range (taken.length + 1)).map (variant name)).Nodup :=
    List.nodup_range.map (variant_injective name)
  have hlength := (hnodup.subperm hsubset).length_le
  rw [List.length_map, List.length_range] at hlength
  omega

/-- The first of a name and its variants that is not taken. -/
inductive FirstFree (taken : List String) (base : String) : String → Prop
  | itself (free : base ∉ taken) : FirstFree taken base base
  | numbered {number : Nat} (used : base ∈ taken) (free : variant base number ∉ taken)
      (least : ∀ smaller < number, variant base smaller ∈ taken) :
      FirstFree taken base (variant base number)

theorem FirstFree.not_mem {taken : List String} {base name : String}
    (h : FirstFree taken base name) : name ∉ taken := by
  cases h with
  | itself free => exact free
  | numbered _ free _ => exact free

/-- A fresh name is the first that is free. -/
theorem firstFree_freshName (taken : List String) (base : String) :
    FirstFree taken base (freshName taken base) := by
  by_cases hused : base ∈ taken
  · obtain ⟨free, hfree, hnew⟩ := exists_variant_not_mem taken base
    have hsome : ((List.range (taken.length + 1)).find?
        fun number => !taken.contains (variant base number)).isSome := by
      rw [List.find?_isSome]
      exact ⟨free, List.mem_range.mpr hfree, by simpa using hnew⟩
    obtain ⟨number, hnumber⟩ := Option.isSome_iff_exists.mp hsome
    have hfresh : freshName taken base = variant base number := by
      have hvariants : freshName taken base = (((List.range (taken.length + 1)).map
          (variant base)).find? (!taken.contains ·)).getD base :=
        if_pos (List.contains_iff_mem.mpr hused)
      rw [hvariants, List.find?_map]
      exact congrArg (fun found => (Option.map (variant base) found).getD base) hnumber
    rw [List.find?_range_eq_some] at hnumber
    obtain ⟨hfree, _, hleast⟩ := hnumber
    rw [hfresh]
    refine .numbered hused (by simpa using hfree) fun smaller hsmaller => ?_
    simpa using hleast smaller hsmaller
  · have hfresh : freshName taken base = base :=
      if_neg fun hcontains => hused (List.contains_iff_mem.mp hcontains)
    rw [hfresh]
    exact .itself hused

/-- A fresh name is not taken. -/
theorem freshName_not_mem (taken : List String) (name : String) :
    freshName taken name ∉ taken :=
  (firstFree_freshName taken name).not_mem

/-- The search for a free name as a loop: a name that is taken is given up for the base
with the next number behind it. -/
inductive Search (taken : List String) (base : String) : Nat → String → String → Prop
  | found {number : Nat} {name : String} (free : name ∉ taken) :
      Search taken base number name name
  | next {number : Nat} {name final : String} (used : name ∈ taken)
      (rest : Search taken base (number + 1) (variant base number) final) :
      Search taken base number name final

/-- A search comes to one end at most. -/
theorem Search.unique {taken : List String} {base name final other : String} {number : Nat}
    (h : Search taken base number name final) (h' : Search taken base number name other) :
    final = other := by
  induction h with
  | found free =>
      cases h' with
      | found _ => rfl
      | next used _ => exact absurd used free
  | next used _ ih =>
      cases h' with
      | found free => exact absurd used free
      | next _ rest => exact ih rest

/-- A search that starts from the base ends with the first that is free. -/
theorem FirstFree.search {taken : List String} {base name : String}
    (h : FirstFree taken base name) : Search taken base 0 base name := by
  cases h with
  | itself free => exact .found free
  | @numbered number used free least =>
      -- from each variant up to the free one the search goes on to it
      have hgoes : ∀ left reached, reached + left = number →
          Search taken base (reached + 1) (variant base reached) (variant base number) := by
        intro left
        induction left with
        | zero =>
            rintro reached rfl
            exact .found free
        | succ left ih =>
            intro reached hreached
            exact .next (least reached (by omega)) (ih (reached + 1) (by omega))
      exact .next used (hgoes number 0 (Nat.zero_add number))

/-- A base that is free is its own first free name. -/
theorem FirstFree.eq_of_not_mem {taken : List String} {base name : String}
    (h : FirstFree taken base name) (hbase : base ∉ taken) : name = base := by
  cases h with
  | itself _ => rfl
  | numbered used _ _ => exact absurd used hbase

/-- A base that is taken gets the least number that makes it free. -/
theorem FirstFree.exists_number {taken : List String} {base name : String}
    (h : FirstFree taken base name) (hbase : base ∈ taken) :
    ∃ number, 1 ≤ number ∧ name = base ++ "_" ++ toString number ∧ name ∉ taken ∧
      ∀ smaller, 1 ≤ smaller → smaller < number →
        base ++ "_" ++ toString smaller ∈ taken := by
  cases h with
  | itself free => exact absurd hbase free
  | @numbered number _ free least =>
      refine ⟨number + 1, Nat.le_add_left 1 number, rfl, free, fun smaller hpos hsmaller => ?_⟩
      obtain ⟨before, rfl⟩ := Nat.exists_eq_add_of_le' hpos
      exact least before (by omega)

theorem FirstFree.congr {taken other : List String} {base name : String}
    (h : FirstFree taken base name) (hsame : ∀ name, name ∈ taken ↔ name ∈ other) :
    FirstFree other base name := by
  cases h with
  | itself free => exact .itself fun hmem => free ((hsame base).mpr hmem)
  | numbered used free least =>
      exact .numbered ((hsame base).mp used) (fun hmem => free ((hsame _).mpr hmem))
        fun smaller hsmaller => (hsame _).mp (least smaller hsmaller)

theorem firstFree_of_getElem? {taken labels : List String} {index : Nat} {label name : String}
    (hlabel : labels[index]? = some label)
    (hname : (documentNamesFrom taken labels)[index]? = some name) :
    FirstFree (((documentNamesFrom taken labels).take index).reverse ++ taken)
      (fileName label) name := by
  induction labels generalizing taken index with
  | nil => simp at hlabel
  | cons first rest ih =>
      cases index with
      | zero =>
          obtain rfl := Option.some.inj hlabel
          obtain rfl := Option.some.inj hname
          exact firstFree_freshName taken (fileName first)
      | succ index =>
          rw [List.getElem?_cons_succ] at hlabel
          rw [documentNamesFrom, List.getElem?_cons_succ] at hname
          rw [documentNamesFrom, List.take_succ_cons, List.reverse_cons, List.append_assoc]
          exact ih hlabel hname

/-- The name of a document is the first that the documents before it leave free. -/
theorem firstFree_documentNames {labels : List String} {index : Nat} {label name : String}
    (hlabel : labels[index]? = some label)
    (hname : (documentNames labels)[index]? = some name) :
    FirstFree ((documentNames labels).take index) (fileName label) name :=
  (firstFree_of_getElem? hlabel hname).congr fun other => by
    rw [List.append_nil, List.mem_reverse]
    rfl

theorem exists_firstFree_of_mem_documentNames {labels : List String} {name : String}
    (h : name ∈ documentNames labels) :
    ∃ label taken, FirstFree taken (fileName label) name := by
  obtain ⟨index, hindex, rfl⟩ := List.getElem_of_mem h
  have hlabel : index < labels.length := by rwa [length_documentNames] at hindex
  exact ⟨labels[index], _, firstFree_documentNames (List.getElem?_eq_getElem hlabel)
    (List.getElem?_eq_getElem hindex)⟩

theorem not_mem_of_mem_documentNamesFrom {taken labels : List String} {name : String}
    (h : name ∈ documentNamesFrom taken labels) : name ∉ taken := by
  induction labels generalizing taken with
  | nil => simp [documentNamesFrom] at h
  | cons label rest ih =>
      rcases List.mem_cons.mp h with rfl | hrest
      · exact freshName_not_mem taken (fileName label)
      · exact fun htaken => ih hrest (List.mem_cons_of_mem _ htaken)

theorem nodup_documentNamesFrom (taken labels : List String) :
    (documentNamesFrom taken labels).Nodup := by
  induction labels generalizing taken with
  | nil => exact List.nodup_nil
  | cons label rest ih =>
      refine List.nodup_cons.mpr ⟨fun hmem => ?_, ih _⟩
      exact not_mem_of_mem_documentNamesFrom hmem List.mem_cons_self

/-- The documents of one call have different names. -/
theorem nodup_documentNames (labels : List String) : (documentNames labels).Nodup :=
  nodup_documentNamesFrom [] labels

theorem isUnsafeInName_eq_false_iff {c : Char} :
    isUnsafeInName c = false ↔ 0x1F < c.toNat ∧ c ∉ "<>:\"/\\|?*".toList := by
  rw [isUnsafeInName, Bool.or_eq_false_iff, decide_eq_false_iff_not, Nat.not_le,
    List.contains_eq_mem, decide_eq_false_iff_not]

/-- No character of the name that a label stands for is unsafe. -/
theorem safe_of_mem_fileName {label : String} {c : Char} (h : c ∈ (fileName label).toList) :
    isUnsafeInName c = false := by
  unfold fileName at h
  simp only at h
  split_ifs at h with htrimmed
  · have hunnamed : "unnamed".toList.all (!isUnsafeInName ·) := by decide
    simpa using List.all_eq_true.mp hunnamed c h
  · rw [String.toList_ofList] at h
    have hreplaced : c ∈ label.toList.map fun c => if isUnsafeInName c then '_' else c := by
      have hreverse := List.mem_reverse.mp h
      have hdrop := (List.dropWhile_suffix _).subset hreverse
      exact (List.dropWhile_suffix _).subset (List.mem_reverse.mp hdrop)
    obtain ⟨original, _, rfl⟩ := List.mem_map.mp hreplaced
    split_ifs with hbad
    · decide
    · simpa using hbad

theorem not_isUnsafeInName_of_isDigit {c : Char} (h : c.isDigit) : isUnsafeInName c = false := by
  have hspecial : "<>:\"/\\|?*".toList.all (!Char.isDigit ·) := by decide
  have hlow : 0x30 ≤ c.toNat := by
    simp only [Char.isDigit, Bool.and_eq_true, decide_eq_true_eq, ge_iff_le] at h
    exact h.1
  refine isUnsafeInName_eq_false_iff.mpr ⟨by omega, fun hmem => ?_⟩
  have hdigit := List.all_eq_true.mp hspecial c hmem
  simp [h] at hdigit

theorem safe_of_mem_variant {name : String} {number : Nat} {c : Char}
    (hname : ∀ c ∈ name.toList, isUnsafeInName c = false)
    (h : c ∈ (variant name number).toList) : isUnsafeInName c = false := by
  simp only [variant, String.toList_append, List.mem_append] at h
  rcases h with (hc | hc) | hc
  · exact hname c hc
  · obtain rfl : c = '_' := by simpa using hc
    decide
  · have hdigit : c ∈ Nat.toDigits 10 (number + 1) := by simpa using hc
    exact not_isUnsafeInName_of_isDigit
      (Nat.isDigit_of_mem_toDigits (by decide) (by decide) hdigit)

theorem FirstFree.safe {taken : List String} {base name : String}
    (h : FirstFree taken base name) (hbase : ∀ c ∈ base.toList, isUnsafeInName c = false) :
    ∀ c ∈ name.toList, isUnsafeInName c = false := by
  cases h with
  | itself _ => exact hbase
  | numbered _ _ _ => exact fun c => safe_of_mem_variant hbase

/-- The names of documents have only characters that file names should have. -/
theorem safe_of_mem_documentNames {labels : List String} {name : String}
    (h : name ∈ documentNames labels) : ∀ c ∈ name.toList, isUnsafeInName c = false := by
  obtain ⟨label, taken, hfirst⟩ := exists_firstFree_of_mem_documentNames h
  exact hfirst.safe fun c => safe_of_mem_fileName

theorem fileName_ne_empty (label : String) : fileName label ≠ "" := by
  unfold fileName
  simp only
  split_ifs with htrimmed
  · decide
  · intro hempty
    have hchars := congrArg String.toList hempty
    rw [String.toList_ofList] at hchars
    exact htrimmed hchars

/-- No name of a document is empty. -/
theorem ne_empty_of_mem_documentNames {labels : List String} {name : String}
    (h : name ∈ documentNames labels) : name ≠ "" := by
  obtain ⟨label, taken, hfirst⟩ := exists_firstFree_of_mem_documentNames h
  cases hfirst with
  | itself _ => exact fileName_ne_empty label
  | numbered _ _ _ => simp [variant]

theorem slash_not_mem_documentNames {labels : List String} {name : String}
    (h : name ∈ documentNames labels) : '/' ∉ name.toList :=
  fun hslash => absurd (safe_of_mem_documentNames h '/' hslash) (by decide)

end Artifact
end JavaSketch
