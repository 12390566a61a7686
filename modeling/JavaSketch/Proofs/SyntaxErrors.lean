import JavaSketch.Proofs.Extents
import JavaSketch.Syntax.Reading

/-!
# The first syntax error

A text is refused if a node of its tree marks an error, and the line that is reported is the
one on which the first of these nodes starts.  The search for it goes into a child only if
the child has an error, and on to the next child if it came back with nothing; the second
never happens, so that the search lists the tree in preorder and stops at the first error.

**Invariant.**  In a well-formed tree the preorder goes through the nodes in the order in
which they start.  So no error starts before the first one in preorder.

**Results.**
* `hasError_iff`: a tree has an error if one of its nodes marks one.
* `firstError_eq_find?`: which node the search comes to.
* `WellFormed.pairwise_start`: the preorder of a well-formed tree.
* `exists_of_ofTree_eq_error`: what the reason to refuse a tree names.
* `read_reports_first_error`: when a text is refused, and with which line.
-/

namespace JavaSketch
namespace Syntax

namespace Node

section Search

theorem isError_iff {node : Node} :
    node.isError = true ↔ node.type = "ERROR" ∨ node.missing = true := by
  simp [isError]

theorem anyHasError_eq (nodes : List Node) : anyHasError nodes = nodes.any hasError := by
  induction nodes with
  | nil => rfl
  | cons child rest ih => rw [anyHasError, ih, List.any_cons]

theorem hasError_eq (node : Node) :
    node.hasError = (node.isError || node.children.any hasError) := by
  rw [← anyHasError_eq]
  cases node
  rfl

/-- A tree has an error if and only if one of its nodes marks one. -/
theorem hasError_iff {node : Node} :
    node.hasError = true ↔ ∃ inner ∈ node.preorder, inner.isError = true := by
  induction node using Node.induction with
  | node node ih =>
      rw [hasError_eq, Bool.or_eq_true, List.any_eq_true]
      constructor
      · rintro (hself | ⟨child, hchild, herror⟩)
        · exact ⟨node, mem_preorder_self node, hself⟩
        · obtain ⟨inner, hinner, hmarks⟩ := (ih child hchild).mp herror
          exact ⟨inner, mem_preorder_of_mem_children hchild hinner, hmarks⟩
      · rintro ⟨inner, hinner, hmarks⟩
        rw [preorder_eq_cons, List.mem_cons, preorderAll_eq_flatMap, List.mem_flatMap] at hinner
        rcases hinner with rfl | ⟨child, hchild, hbelow⟩
        · exact Or.inl hmarks
        · exact Or.inr ⟨child, hchild, (ih child hchild).mpr ⟨inner, hbelow, hmarks⟩⟩

theorem firstError_eq (node : Node) :
    node.firstError = if node.isError then some node else firstErrorAmong node.children := by
  cases node
  rfl

/-- Children without an error are passed over, and a child with one is where the search
ends. -/
theorem firstErrorAmong_eq_find? {nodes : List Node}
    (h : ∀ child ∈ nodes, child.firstError = child.preorder.find? isError) :
    firstErrorAmong nodes = (preorderAll nodes).find? isError := by
  induction nodes with
  | nil => rfl
  | cons child rest ih =>
      have hchild := h child List.mem_cons_self
      have hrest := ih fun other hother => h other (List.mem_cons_of_mem child hother)
      rw [firstErrorAmong, preorderAll, List.find?_append, hchild, ← hrest]
      by_cases herror : child.hasError = true
      · rw [if_pos herror]
        cases child.preorder.find? isError <;> rfl
      · have hnone : child.preorder.find? isError = none := by
          refine List.find?_eq_none.mpr fun node hnode hmarks => herror ?_
          exact hasError_iff.mpr ⟨node, hnode, hmarks⟩
        rw [if_neg herror, hnone]
        rfl

/-- The search comes to the first node in preorder that marks an error. -/
theorem firstError_eq_find? (node : Node) :
    node.firstError = node.preorder.find? isError := by
  induction node using Node.induction with
  | node node ih =>
      rw [firstError_eq, preorder_eq_cons, List.find?_cons, firstErrorAmong_eq_find? ih]
      cases node.isError <;> rfl

end Search

namespace WellFormed

variable {root : Node}

theorem inside_of_mem_preorder (h : root.WellFormed) :
    ∀ inner ∈ root.preorder, root.start ≤ inner.start ∧ inner.stop ≤ root.stop := by
  induction root using Node.induction with
  | node root ih =>
      intro inner hinner
      rw [preorder_eq_cons, List.mem_cons, preorderAll_eq_flatMap, List.mem_flatMap] at hinner
      rcases hinner with rfl | ⟨child, hchild, hbelow⟩
      · exact ⟨Nat.le_refl _, Nat.le_refl _⟩
      · have hparts := h.partsInOrder.inside child hchild
        have hinside := ih child hchild (h.of_mem_children hchild) inner hbelow
        exact ⟨Nat.le_trans hparts.1 hinside.1, Nat.le_trans hinside.2 hparts.2⟩

/-- The preorder goes through the nodes in the order in which they start. -/
theorem pairwise_start (h : root.WellFormed) :
    root.preorder.Pairwise fun first second => first.start ≤ second.start := by
  induction root using Node.induction with
  | node root ih =>
      rw [preorder_eq_cons, List.pairwise_cons]
      constructor
      · intro inner hinner
        have hmem : inner ∈ root.preorder := by
          rw [preorder_eq_cons]
          exact List.mem_cons_of_mem root hinner
        exact (h.inside_of_mem_preorder inner hmem).1
      · rw [preorderAll_eq_flatMap, List.pairwise_flatMap]
        refine ⟨fun child hchild => ih child hchild (h.of_mem_children hchild), ?_⟩
        refine h.pairwise_children.imp_of_mem ?_
        intro child later hchild hlater hapart first hfirst second hsecond
        have hwell := h.of_mem_children hchild
        have horder : first.start ≤ first.stop := (hwell first hfirst).start_le_stop
        have hinside := hwell.inside_of_mem_preorder first hfirst
        have hinside' := (h.of_mem_children hlater).inside_of_mem_preorder second hsecond
        omega

end WellFormed

end Node

namespace SourceUnit

/-- A line is told by its number. -/
theorem near_line_ne_unknown (line : Nat) :
    "syntax error near " ++ ("line " ++ toString line) ≠ "syntax error near unknown line" := by
  intro h
  have hchar := congrArg (fun reason => reason.toList[18]?) h
  simp at hchar

variable {unit : SourceUnit}

theorem errorPlace_eq {first : Node} (h : unit.root.preorder.find? Node.isError = some first) :
    unit.errorPlace = "line " ++ toString (unit.startLine first) := by
  rw [errorPlace, Node.firstError_eq_find?, h]

theorem exists_ofTree_eq_error_iff :
    (∃ failure, ofTree unit.path unit.text unit.root = .error failure) ↔
      ∃ node ∈ unit.root.preorder, node.isError = true := by
  rw [← Node.hasError_iff, ofTree]
  cases unit.root.hasError <;> simp

/-- The reason to refuse a tree names the line of its first error. -/
theorem exists_of_ofTree_eq_error {failure : Failure}
    (h : ofTree unit.path unit.text unit.root = .error failure) :
    ∃ first, unit.root.preorder.find? Node.isError = some first ∧
      failure = .unparsable unit.path
        ("syntax error near " ++ ("line " ++ toString (unit.startLine first))) := by
  obtain ⟨node, hnode, hmarks⟩ := exists_ofTree_eq_error_iff.mp ⟨failure, h⟩
  obtain ⟨first, hfirst⟩ := Option.isSome_iff_exists.mp
    (List.find?_isSome.mpr ⟨node, hnode, hmarks⟩)
  refine ⟨first, hfirst, ?_⟩
  rw [ofTree, if_pos (Node.hasError_iff.mpr ⟨node, hnode, hmarks⟩)] at h
  rw [← Except.error.inj h, errorPlace_eq hfirst]

/-- In a well-formed tree no error starts on a line before the first one. -/
theorem startLine_le_of_find? {first : Node} (hwell : unit.root.WellFormed)
    (h : unit.root.preorder.find? Node.isError = some first) :
    ∀ node ∈ unit.root.preorder, node.isError = true →
      unit.startLine first ≤ unit.startLine node := by
  intro node hnode hmarks
  obtain ⟨_, before, after, hpreorder, hbefore⟩ := List.find?_eq_some_iff_append.mp h
  have hpairwise := hwell.pairwise_start
  rw [hpreorder] at hnode hpairwise
  rcases List.mem_append.mp hnode with hearlier | hlater
  · exact absurd hmarks (by simpa using hbefore node hearlier)
  rcases List.mem_cons.mp hlater with rfl | hlater
  · exact Nat.le_refl _
  · have hafter := (List.pairwise_append.mp hpairwise).2.1
    exact unit.lineAt_mono (List.rel_of_pairwise_cons hafter hlater)

/-- **The first syntax error.**  A node has an error if it marks one itself or one of its
children has one.  A text is refused if and only if some node of its tree marks an error.  The
reason names the line on which the first of these nodes in preorder starts, and always names
a line by its number; in a well-formed tree none of these nodes starts on an earlier one. -/
theorem read_reports_first_error (parse : Parser) (path text : String) :
    let normalized := Text.normalizeNewlines text
    let unit : SourceUnit := ⟨path, normalized, parse normalized⟩
    (∀ node : Node, node.hasError = true ↔
      node.type = "ERROR" ∨ node.missing = true ∨
        ∃ child ∈ node.children, child.hasError = true) ∧
    ((∃ failure, read parse path text = .error failure) ↔
      ∃ node ∈ unit.root.preorder, node.type = "ERROR" ∨ node.missing = true) ∧
    (∀ failure, read parse path text = .error failure →
      ∃ before first after, unit.root.preorder = before ++ first :: after ∧
        (∀ node ∈ before, node.isError = false) ∧ first.isError = true ∧
        failure = .unparsable path
          ("syntax error near " ++ ("line " ++ toString (unit.startLine first))) ∧
        (unit.root.WellFormed → ∀ node ∈ unit.root.preorder, node.isError = true →
          unit.startLine first ≤ unit.startLine node)) ∧
    ∀ named, read parse path text ≠
      .error (.unparsable named "syntax error near unknown line") := by
  intro normalized unit
  have hread : read parse path text = ofTree unit.path unit.text unit.root := rfl
  rw [hread]
  refine ⟨fun node => ?_, ?_, ?_, ?_⟩
  · rw [Node.hasError_eq, Bool.or_eq_true, List.any_eq_true, Node.isError_iff, or_assoc]
  · simp only [exists_ofTree_eq_error_iff, Node.isError_iff]
  · intro failure hfailure
    obtain ⟨first, hfirst, rfl⟩ := exists_of_ofTree_eq_error hfailure
    obtain ⟨hmarks, before, after, hpreorder, hbefore⟩ := List.find?_eq_some_iff_append.mp hfirst
    refine ⟨before, first, after, hpreorder, ?_, hmarks, rfl, fun hwell =>
      startLine_le_of_find? hwell hfirst⟩
    exact fun node hnode => by simpa using hbefore node hnode
  · intro named hunknown
    obtain ⟨first, _, hreason⟩ := exists_of_ofTree_eq_error hunknown
    exact near_line_ne_unknown _ (Failure.unparsable.inj hreason).2.symm

end SourceUnit

/-- What is left of a method without a closing parenthesis, `void f( {`, which is missing
together with the end of the body. -/
def brokenMethod : Node :=
  ⟨"ERROR", 12, 21, true, false, none,
    [⟨"void_type", 12, 16, true, false, none, []⟩,
      ⟨"identifier", 17, 18, true, false, none, []⟩,
      ⟨"(", 18, 19, false, false, none, []⟩,
      ⟨")", 19, 19, false, true, none, []⟩,
      ⟨"\x7b", 20, 21, false, false, none, []⟩,
      ⟨"\x7d", 21, 21, false, true, none, []⟩]⟩

/-- The tree of a class with this method. -/
def brokenClass : Node :=
  ⟨"program", 0, 23, true, false, none,
    [⟨"class_declaration", 0, 23, true, false, none,
      [⟨"class", 0, 5, false, false, none, []⟩,
        ⟨"identifier", 6, 7, true, false, some "name", []⟩,
        ⟨"class_body", 8, 23, true, false, some "body",
          [⟨"\x7b", 8, 9, false, false, none, []⟩, brokenMethod,
            ⟨"\x7d", 22, 23, false, false, none, []⟩]⟩]⟩]⟩

/-- The text of the class, with one line end of two characters. -/
def brokenText : String :=
  "class A \x7b\r\n  void f( \x7b\n\x7d\n"

/-- The error that is reported is what the missing parenthesis is in. -/
theorem read_brokenText :
    let unit : SourceUnit := ⟨"A.java", Text.normalizeNewlines brokenText, brokenClass⟩
    brokenClass.WellFormed ∧
      SourceUnit.read (fun _ => brokenClass) "A.java" brokenText =
        .error (.unparsable "A.java" "syntax error near line 2") ∧
      ∀ node ∈ brokenClass.preorder, node.isError = true → 2 ≤ unit.startLine node := by
  intro unit
  have hwell : brokenClass.WellFormed := by decide +kernel
  have hline : unit.startLine brokenMethod = 2 := by decide +kernel
  have hmarked : brokenClass.preorder.find? Node.isError = some brokenMethod := by rfl
  obtain ⟨_, hrefused, hreported, _⟩ :=
    SourceUnit.read_reports_first_error (fun _ => brokenClass) "A.java" brokenText
  obtain ⟨failure, hfailure⟩ := hrefused.mpr (by decide +kernel)
  obtain ⟨before, first, after, hpreorder, hbefore, hmarks, rfl, hleast⟩ :=
    hreported failure hfailure
  have hfirst : brokenClass.preorder.find? Node.isError = some first :=
    List.find?_eq_some_iff_append.mpr
      ⟨hmarks, before, after, hpreorder, fun node hnode => by simp [hbefore node hnode]⟩
  obtain rfl := Option.some.inj (hmarked.symm.trans hfirst)
  refine ⟨hwell, ?_, ?_⟩
  · rw [hfailure, hline]
    rfl
  · rw [← hline]
    exact hleast hwell

end Syntax
end JavaSketch
