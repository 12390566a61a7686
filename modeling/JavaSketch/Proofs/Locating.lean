import JavaSketch.Proofs.Traversal
import JavaSketch.Span.Locate
import Mathlib.Control.Monad.Basic

/-!
# What is located

The candidates of a unit are nodes of its tree with one of a few symbols.  Each
located span belongs to a candidate, and a unit is located unless the lines of
some candidate are reversed.

**Results.**
* `node_mem_preorder_of_mem_candidates`: where candidates come from.
* `exists_candidate_of_mem_spans`: every span is the span of a candidate.
* `exists_locate_eq_ok`: candidates with lines in order can all be located.
-/

namespace JavaSketch

open Syntax (Node Site SourceUnit)

/-- The symbols of the nodes that may be shown as constructs. -/
def constructTypes : List String :=
  ["method_declaration", "for_statement", "if_statement", "enhanced_for_statement",
    "switch_statement", "switch_expression"]

namespace Syntax.Node

theorem mem_children_of_childByField {node child : Node} {field : String}
    (h : node.childByField field = some child) : child ∈ node.children :=
  List.mem_of_find?_eq_some h

theorem mem_children_of_childOfType {node child : Node} {types : List String}
    (h : node.childOfType types = some child) : child ∈ node.children :=
  List.mem_of_find?_eq_some h

theorem mem_children_of_mem_namedChildren {node child : Node}
    (h : child ∈ node.namedChildren) : child ∈ node.children :=
  (List.mem_filter.mp h).1

theorem mem_preorder_of_mem_memberMethods {declaration method : Node}
    (h : method ∈ declaration.memberMethods) :
    method ∈ declaration.preorder ∧ method.type = "method_declaration" := by
  unfold memberMethods at h
  split at h
  · simp at h
  · rename_i body hbody
    have hbody_mem : body ∈ declaration.preorder :=
      child_mem_preorder (mem_children_of_childByField hbody)
    obtain ⟨hmember, htype⟩ := List.mem_filter.mp h
    refine ⟨mem_preorder_trans declaration hbody_mem ?_, by simpa using htype⟩
    split at hmember
    · split at hmember
      · rename_i part hpart
        exact mem_preorder_of_mem_children (mem_children_of_childOfType hpart)
          (child_mem_preorder (mem_children_of_mem_namedChildren hmember))
      · simp at hmember
    · exact child_mem_preorder (mem_children_of_mem_namedChildren hmember)

/-- The declaration that names a parameter, if a node is a parameter. -/
def parameterDeclarator (parameter : Node) : Option Node :=
  if parameter.type = "formal_parameter" then some parameter
  else if parameter.type = "spread_parameter" then
    parameter.childOfType ["variable_declarator"]
  else none

/-- The declarations that name the parameters of a method. -/
def parameterDeclarators (method : Node) : List Node :=
  match method.childByField "parameters" with
  | none => []
  | some parameters => parameters.namedChildren.filterMap parameterDeclarator

theorem eq_some_of_requiredChild_eq_ok {child : Option Node} {part : String} {node : Node}
    (h : requiredChild child part = .ok node) : child = some node := by
  unfold requiredChild at h
  split at h
  · split at h
    · simp at h
    · exact congrArg some (Except.ok.inj h)
  · simp at h

end Syntax.Node

namespace Syntax.SourceUnit

theorem parameterNames_eq (unit : SourceUnit) (method : Node) :
    unit.parameterNames method = method.parameterDeclarators.map unit.declaredName := by
  unfold parameterNames Node.parameterDeclarators
  cases method.childByField "parameters" with
  | none => rfl
  | some parameters =>
      rw [List.map_filterMap]
      refine congrArg (parameters.namedChildren.filterMap ·) (funext fun parameter => ?_)
      unfold Node.parameterDeclarator
      split
      · rfl
      · split <;> rfl

/-- Every candidate is a node of the tree that has the symbol of a construct. -/
theorem node_mem_preorder_of_mem_candidates {unit : SourceUnit} {candidate : Candidate}
    (h : candidate ∈ unit.candidates) :
    candidate.node ∈ unit.root.preorder ∧ candidate.node.type ∈ constructTypes := by
  obtain ⟨kind, _, hmem⟩ := List.mem_flatMap.mp h
  cases kind with
  | methodSignature =>
      obtain ⟨declaration, hdeclaration, hcandidate⟩ := List.mem_flatMap.mp hmem
      obtain ⟨method, hmethod, rfl⟩ := List.mem_map.mp hcandidate
      obtain ⟨hbelow, htype⟩ := Node.mem_preorder_of_mem_memberMethods hmethod
      have hroot := (Node.mem_findAll_iff.mp hdeclaration).1
      exact ⟨Node.mem_preorder_trans unit.root hroot hbelow,
        by simp [Candidate.node, htype, constructTypes]⟩
  | switchBlock =>
      obtain ⟨site, hsite, rfl⟩ := List.mem_map.mp hmem
      obtain ⟨hroot, htype⟩ :=
        Node.node_mem_preorder_of_mem_findSites (List.mem_filter.mp hsite).1
      refine ⟨hroot, ?_⟩
      have htype : site.node.type = "switch_statement" ∨
          site.node.type = "switch_expression" := by simpa using htype
      rcases htype with htype | htype <;> simp [Candidate.node, htype, constructTypes]
  | forLoop | forEachLoop | conditional =>
      obtain ⟨node, hnode, rfl⟩ := List.mem_map.mp hmem
      obtain ⟨hroot, htype⟩ := Node.mem_findAll_iff.mp hnode
      have htype := List.mem_singleton.mp htype
      exact ⟨hroot, by simp [Candidate.node, htype, constructTypes]⟩

theorem declaration_mem_preorder_of_mem_candidates {unit : SourceUnit}
    {declaration method : Node} (h : .method declaration method ∈ unit.candidates) :
    declaration ∈ unit.root.preorder := by
  obtain ⟨kind, _, hmem⟩ := List.mem_flatMap.mp h
  obtain rfl : ConstructKind.methodSignature = kind := kind_of_mem_candidatesOf hmem
  obtain ⟨declaring, hdeclaring, hcandidate⟩ := List.mem_flatMap.mp hmem
  obtain ⟨_, _, hequal⟩ := List.mem_map.mp hcandidate
  obtain ⟨rfl, rfl⟩ := Candidate.method.inj hequal
  exact (Node.mem_findAll_iff.mp hdeclaring).1

end Syntax.SourceUnit

/-- A chain of two steps succeeds if both do. -/
theorem bind_eq_ok_iff {ε α β : Type} {first : Except ε α} {next : α → Except ε β}
    {b : β} : (first >>= next) = .ok b ↔ ∃ a, first = .ok a ∧ next a = .ok b := by
  cases first <;> simp [bind, Except.bind]

theorem pure_eq_ok_iff {ε α : Type} {a b : α} :
    (pure a : Except ε α) = .ok b ↔ a = b := by
  simp [pure, Except.pure]

namespace Syntax.SourceUnit

theorem mem_split_of_tokenAt_eq_ok {part text word : String} {index : Nat}
    (h : tokenAt part text index = .ok word) : word ∈ Text.split ' ' text := by
  unfold tokenAt at h
  split at h
  · rename_i hword
    obtain rfl := Except.ok.inj h
    exact List.mem_of_getElem? hword
  · simp at h

/-- The texts of a counting loop. -/
theorem exists_of_forLoop_eq_ok {unit : SourceUnit} {node : Node} {construct : Construct}
    (h : unit.forLoop node = .ok construct) :
    ∃ initializer ∈ node.childByField "init",
      ∃ comparison ∈ node.childByField "condition",
      ∃ bound ∈ Text.split ' ' (unit.canonicalText comparison),
      ∃ counter ∈ Text.split ' ' (unit.canonicalText initializer),
        construct = .forLoop (unit.canonicalText initializer) bound counter := by
  unfold forLoop at h
  obtain ⟨initializer, hinitializer, h⟩ := bind_eq_ok_iff.mp h
  obtain ⟨comparison, hcomparison, h⟩ := bind_eq_ok_iff.mp h
  obtain ⟨bound, hbound, h⟩ := bind_eq_ok_iff.mp h
  obtain ⟨counter, hcounter, h⟩ := bind_eq_ok_iff.mp h
  exact ⟨initializer, Node.eq_some_of_requiredChild_eq_ok hinitializer,
    comparison, Node.eq_some_of_requiredChild_eq_ok hcomparison,
    bound, mem_split_of_tokenAt_eq_ok hbound,
    counter, mem_split_of_tokenAt_eq_ok hcounter, (pure_eq_ok_iff.mp h).symm⟩

/-- The texts of a loop over a collection. -/
theorem exists_of_forEachLoop_eq_ok {unit : SourceUnit} {node : Node}
    {construct : Construct} (h : unit.forEachLoop node = .ok construct) :
    ∃ element ∈ node.childByField "name", ∃ iterable ∈ node.childByField "value",
      construct = .forEachLoop (unit.nodeText element) (unit.canonicalText iterable) := by
  unfold forEachLoop at h
  obtain ⟨element, helement, h⟩ := bind_eq_ok_iff.mp h
  obtain ⟨iterable, hiterable, h⟩ := bind_eq_ok_iff.mp h
  exact ⟨element, Node.eq_some_of_requiredChild_eq_ok helement,
    iterable, Node.eq_some_of_requiredChild_eq_ok hiterable, (pure_eq_ok_iff.mp h).symm⟩

/-- The text of a conditional. -/
theorem exists_of_conditional_eq_ok {unit : SourceUnit} {node : Node}
    {construct : Construct} (h : unit.conditional node = .ok construct) :
    ∃ condition ∈ node.conditionContent,
      construct = .conditional (unit.canonicalText condition) := by
  unfold conditional at h
  obtain ⟨condition, hcondition, h⟩ := bind_eq_ok_iff.mp h
  exact ⟨condition, Node.eq_some_of_requiredChild_eq_ok hcondition,
    (pure_eq_ok_iff.mp h).symm⟩

/-- The text of a switch. -/
theorem exists_of_switchBlock_eq_ok {unit : SourceUnit} {node : Node}
    {construct : Construct} (h : unit.switchBlock node = .ok construct) :
    ∃ selector ∈ node.conditionContent,
      construct = .switchBlock (unit.canonicalText selector) := by
  unfold switchBlock at h
  obtain ⟨selector, hselector, h⟩ := bind_eq_ok_iff.mp h
  exact ⟨selector, Node.eq_some_of_requiredChild_eq_ok hselector,
    (pure_eq_ok_iff.mp h).symm⟩

end Syntax.SourceUnit

namespace Candidate

/-- A candidate makes a construct of its own kind. -/
theorem kind_of_construct_eq_ok {unit : SourceUnit} {candidate : Candidate}
    {construct : Construct} (h : candidate.construct unit = .ok construct) :
    construct.kind = candidate.kind := by
  cases candidate with
  | method declaration node =>
      obtain rfl := Except.ok.inj h
      rfl
  | forLoop node =>
      obtain ⟨_, _, _, _, _, _, _, _, rfl⟩ := SourceUnit.exists_of_forLoop_eq_ok h
      rfl
  | forEachLoop node =>
      obtain ⟨_, _, _, _, rfl⟩ := SourceUnit.exists_of_forEachLoop_eq_ok h
      rfl
  | conditional node =>
      obtain ⟨_, _, rfl⟩ := SourceUnit.exists_of_conditional_eq_ok h
      rfl
  | switchBlock node =>
      obtain ⟨_, _, rfl⟩ := SourceUnit.exists_of_switchBlock_eq_ok h
      rfl

theorem span_of_locate_eq_ok {unit : SourceUnit} {candidate : Candidate} {span : Span}
    (h : candidate.locate unit = .ok (.located span)) :
    candidate.construct unit = .ok span.construct ∧
      span.first = candidate.firstLine unit ∧ span.last = candidate.lastLine unit := by
  unfold locate at h
  split at h
  · rename_i construct hconstruct
    cases hlines : Span.ofLines construct (candidate.firstLine unit)
        (candidate.lastLine unit) with
    | error failure => simp [hlines, Except.map] at h
    | ok located =>
        simp only [hlines, Except.map, Except.ok.injEq, Finding.located.injEq] at h
        subst h
        obtain ⟨rfl, hfirst, hlast⟩ := Span.ofLines_eq_ok_iff.mp hlines
        exact ⟨hconstruct, hfirst, hlast⟩
  · simp at h

/-- A candidate whose lines are in order is located or passed over. -/
theorem exists_locate_eq_ok {unit : SourceUnit} {candidate : Candidate}
    (h : candidate.firstLine unit ≤ candidate.lastLine unit) :
    ∃ finding, candidate.locate unit = .ok finding := by
  unfold locate
  split
  · simp [Span.ofLines, h, Except.map]
  · exact ⟨_, rfl⟩

theorem unrendered_of_locate_eq_ok {unit : SourceUnit} {candidate : Candidate}
    {diagnostic : Diagnostic} (h : candidate.locate unit = .ok (.skipped diagnostic)) :
    ∃ cause, candidate.construct unit = .error cause ∧
      diagnostic = .unrendered candidate.node.type (unit.startLine candidate.node) cause := by
  unfold locate at h
  split at h
  · rename_i construct _
    cases hlines : Span.ofLines construct (candidate.firstLine unit)
        (candidate.lastLine unit) <;> simp [hlines, Except.map] at h
  · rename_i cause hconstruct
    simp only [Except.ok.injEq, Finding.skipped.injEq] at h
    exact ⟨cause, hconstruct, h.symm⟩

/-- Nothing that a method is shown by can be missing. -/
theorem exists_located_of_methodSignature {unit : SourceUnit} {candidate : Candidate}
    {finding : Finding} (hkind : candidate.kind = .methodSignature)
    (h : candidate.locate unit = .ok finding) : ∃ span, finding = .located span := by
  cases finding with
  | located span => exact ⟨span, rfl⟩
  | skipped diagnostic =>
      obtain ⟨cause, hconstruct, _⟩ := unrendered_of_locate_eq_ok h
      cases candidate <;> cases hkind
      simp [construct] at hconstruct

end Candidate

/-- The results of a mapping that succeeds are those of its elements. -/
theorem filterMap_toOption_of_mapM_eq_ok {α β : Type} {f : α → Except Failure β}
    {xs : List α} {ys : List β} (h : xs.mapM f = .ok ys) :
    xs.filterMap (fun x => (f x).toOption) = ys := by
  induction xs generalizing ys with
  | nil => exact pure_eq_ok_iff.mp h
  | cons x xs ih =>
      simp only [List.mapM_cons, bind_eq_ok_iff, pure_eq_ok_iff] at h
      obtain ⟨first, hfirst, rest, hrest, rfl⟩ := h
      rw [List.filterMap_cons, hfirst, ih hrest]
      rfl

/-- The results of a mapping that succeeds are results of its function. -/
theorem exists_of_mem_of_mapM_eq_ok {α β : Type} {f : α → Except Failure β}
    {xs : List α} {ys : List β} (h : xs.mapM f = .ok ys) {y : β} (hy : y ∈ ys) :
    ∃ x ∈ xs, f x = .ok y := by
  rw [← filterMap_toOption_of_mapM_eq_ok h] at hy
  obtain ⟨x, hx, hfx⟩ := List.mem_filterMap.mp hy
  refine ⟨x, hx, ?_⟩
  cases hresult : f x with
  | error failure => simp [hresult, Except.toOption] at hfx
  | ok result =>
      rw [hresult] at hfx
      exact congrArg Except.ok (Option.some.inj hfx)

/-- A mapping that succeeds has a result for each element. -/
theorem exists_eq_ok_of_mapM_eq_ok {α β : Type} {f : α → Except Failure β}
    {xs : List α} {ys : List β} (h : xs.mapM f = .ok ys) {x : α} (hx : x ∈ xs) :
    ∃ y, f x = .ok y := by
  induction xs generalizing ys with
  | nil => simp at hx
  | cons first rest ih =>
      simp only [List.mapM_cons, bind_eq_ok_iff] at h
      obtain ⟨y, hfirst, ys, hrest, _⟩ := h
      rcases List.mem_cons.mp hx with rfl | hx
      · exact ⟨y, hfirst⟩
      · exact ih hrest hx

/-- A mapping succeeds if its function does on every element. -/
theorem exists_mapM_eq_ok {α β : Type} {f : α → Except Failure β} {xs : List α}
    (h : ∀ x ∈ xs, ∃ y, f x = .ok y) : ∃ ys, xs.mapM f = .ok ys := by
  induction xs with
  | nil => exact ⟨[], rfl⟩
  | cons x xs ih =>
      obtain ⟨y, hy⟩ := h x List.mem_cons_self
      obtain ⟨ys, hys⟩ := ih fun x' hx' => h x' (List.mem_cons_of_mem x hx')
      exact ⟨y :: ys, by simp [hy, hys, bind, Except.bind, pure, Except.pure]⟩

/-- A mapping only depends on what its function does on the elements. -/
theorem mapM_congr_of_mem {ε α β : Type} {f g : α → Except ε β} {xs : List α}
    (h : ∀ x ∈ xs, f x = g x) : xs.mapM f = xs.mapM g := by
  induction xs with
  | nil => rfl
  | cons x xs ih =>
      rw [List.mapM_cons, List.mapM_cons, h x List.mem_cons_self,
        ih fun x' hx' => h x' (List.mem_cons_of_mem x hx')]

namespace Syntax.SourceUnit

theorem findings_of_locate_eq_ok {unit : SourceUnit} {located : Located}
    (h : unit.locate = .ok located) :
    ∃ findings, unit.findings = .ok findings ∧
      located = ⟨findings.filterMap (·.span?), findings.filterMap (·.diagnostic?)⟩ := by
  obtain ⟨findings, hfindings, hpure⟩ := bind_eq_ok_iff.mp h
  exact ⟨findings, hfindings, (pure_eq_ok_iff.mp hpure).symm⟩

/-- Every located span covers the lines of a candidate and shows its construct. -/
theorem exists_candidate_of_mem_spans {unit : SourceUnit} {located : Located}
    (h : unit.locate = .ok located) {span : Span} (hspan : span ∈ located.spans) :
    ∃ candidate ∈ unit.candidates, candidate.construct unit = .ok span.construct ∧
      span.first = candidate.firstLine unit ∧ span.last = candidate.lastLine unit := by
  obtain ⟨findings, hfindings, rfl⟩ := findings_of_locate_eq_ok h
  obtain ⟨finding, hmem, hfinding⟩ := List.mem_filterMap.mp hspan
  obtain ⟨candidate, hcandidate, hlocate⟩ :=
    exists_of_mem_of_mapM_eq_ok hfindings hmem
  cases finding with
  | skipped diagnostic => simp [Finding.span?] at hfinding
  | located located =>
      simp only [Finding.span?, Option.some.injEq] at hfinding
      subst hfinding
      exact ⟨candidate, hcandidate, Candidate.span_of_locate_eq_ok hlocate⟩

/-- The reports of locating are about nodes that do not make a construct. -/
theorem unrendered_of_mem_diagnostics {unit : SourceUnit} {located : Located}
    (h : unit.locate = .ok located) {diagnostic : Diagnostic}
    (hdiagnostic : diagnostic ∈ located.diagnostics) :
    ∃ type line cause, diagnostic = .unrendered type line cause := by
  obtain ⟨findings, hfindings, rfl⟩ := findings_of_locate_eq_ok h
  obtain ⟨finding, hmem, hfinding⟩ := List.mem_filterMap.mp hdiagnostic
  obtain ⟨candidate, _, hlocate⟩ := exists_of_mem_of_mapM_eq_ok hfindings hmem
  cases finding with
  | located span => simp [Finding.diagnostic?] at hfinding
  | skipped reported =>
      simp only [Finding.diagnostic?, Option.some.injEq] at hfinding
      subst hfinding
      obtain ⟨cause, _, rfl⟩ := Candidate.unrendered_of_locate_eq_ok hlocate
      exact ⟨_, _, cause, rfl⟩

/-- A unit is located if no candidate has its lines reversed. -/
theorem exists_locate_eq_ok {unit : SourceUnit}
    (h : ∀ candidate ∈ unit.candidates,
      candidate.firstLine unit ≤ candidate.lastLine unit) :
    ∃ located, unit.locate = .ok located := by
  obtain ⟨findings, hfindings⟩ : ∃ findings, unit.findings = .ok findings :=
    exists_mapM_eq_ok fun candidate hcandidate =>
      Candidate.exists_locate_eq_ok (h candidate hcandidate)
  simp [locate, hfindings, bind, Except.bind, pure, Except.pure]

end Syntax.SourceUnit

/-- The text of a conditional on one line, with its tree. -/
def oneLineConditional : SourceUnit :=
  { path := "Sign.java"
    text := "  if(a)\x7b\x7d\n"
    root :=
      ⟨"if_statement", 2, 9, true, false, none,
        [⟨"if", 2, 4, false, false, none, []⟩,
          ⟨"parenthesized_expression", 4, 7, true, false, some "condition",
            [⟨"(", 4, 5, false, false, none, []⟩,
              ⟨"identifier", 5, 6, true, false, none, []⟩,
              ⟨")", 6, 7, false, false, none, []⟩]⟩,
          ⟨"block", 7, 9, true, false, some "consequence", []⟩]⟩ }

theorem locate_oneLineConditional :
    oneLineConditional.locate = .ok ⟨[⟨.conditional "a", 1, 1, Int.le_refl 1⟩], []⟩ := by
  decide +kernel

end JavaSketch
