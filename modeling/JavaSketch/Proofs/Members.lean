import JavaSketch.Proofs.Positions
import JavaSketch.Span.Locate

/-!
# Members and their places

The methods of a declaration are two levels below it, those of an enumeration three:
in the first child that is its body, or in the first part of that for declarations.
`IsMember` says so of a place below the declaration; `placedMethods` lists the methods
as the locator does, with their places.

**Results.**
* `firstChild?_eq_some_iff`: what it means to be the first child of some kind.
* `mem_placedMethods_iff`: the listed methods are the members.
* `inDocumentOrder_placedMethods`: they are listed in document order.
* `map_snd_placedMethods`: they are what the locator looks at.
-/

namespace JavaSketch
namespace Syntax.Node

section FirstChild

/-- The first child that satisfies a condition, with its number. -/
def firstChild? (node : Node) (p : Node → Bool) : Option (Node × Nat) :=
  node.children.zipIdx.find? fun child => p child.1

/-- Whether a node is the first child that satisfies a condition. -/
structure IsFirstChild (node : Node) (p : Node → Bool) (child : Node) (index : Nat) : Prop where
  getElem? : node.children[index]? = some child
  satisfies : p child
  first : ∀ earlier < index, ∀ other, node.children[earlier]? = some other → p other = false

variable {node child : Node} {p : Node → Bool} {index : Nat}

theorem map_fst_firstChild? (node : Node) (p : Node → Bool) :
    (node.firstChild? p).map Prod.fst = node.children.find? p := by
  have hchildren := List.find?_map (p := p) (f := Prod.fst) (l := node.children.zipIdx)
  rw [List.zipIdx_map_fst] at hchildren
  exact hchildren.symm

theorem firstChild?_eq_some_iff :
    node.firstChild? p = some (child, index) ↔ node.IsFirstChild p child index := by
  rw [firstChild?, List.find?_eq_some_iff_getElem]
  constructor
  · rintro ⟨hp, found, hfound, hget, hfirst⟩
    rw [List.length_zipIdx] at hfound
    rw [List.getElem_zipIdx, Nat.zero_add] at hget
    obtain ⟨rfl, rfl⟩ := Prod.mk.inj hget
    refine ⟨List.getElem?_eq_getElem hfound, hp, fun earlier hearlier other hother => ?_⟩
    obtain ⟨hlength, rfl⟩ := List.getElem?_eq_some_iff.mp hother
    simpa using hfirst earlier hearlier
  · rintro ⟨hget, hp, hfirst⟩
    obtain ⟨hlength, rfl⟩ := List.getElem?_eq_some_iff.mp hget
    refine ⟨hp, index, by simpa using hlength, by simp, fun earlier hearlier => ?_⟩
    have hother := hfirst earlier hearlier _ (List.getElem?_eq_getElem (by omega))
    simpa using hother

end FirstChild

section Members

/-- Whether a node is a method among the members of a body. -/
def isMethod (node : Node) : Bool :=
  node.named && node.type == "method_declaration"

/-- The condition on a child to be the body. -/
def isBody (child : Node) : Bool :=
  child.field == some "body"

/-- The condition on a child to hold the declarations of an enumeration. -/
def isEnumPart (child : Node) : Bool :=
  child.type == "enum_body_declarations"

/-- Whether a method is a member of a declaration, at a place below the declaration. -/
inductive IsMember (declaration : Node) : Position → Node → Prop
  | ofBody {body method : Node} {index last : Nat}
      (notEnum : declaration.type ≠ "enum_declaration")
      (first : declaration.IsFirstChild isBody body index)
      (getElem? : body.children[last]? = some method) (isMethod : method.isMethod) :
      IsMember declaration [index, last] method
  | ofEnumBody {body part method : Node} {index inner last : Nat}
      (isEnum : declaration.type = "enum_declaration")
      (first : declaration.IsFirstChild isBody body index)
      (firstPart : body.IsFirstChild isEnumPart part inner)
      (getElem? : part.children[last]? = some method) (isMethod : method.isMethod) :
      IsMember declaration [index, inner, last] method

/-- The methods among the children of a node that has a place, with their places. -/
def methodsBelow (node : Node) (place : Position) : List (Position × Node) :=
  (node.children.zipIdx.filter fun child => child.1.isMethod).map fun child =>
    (place ++ [child.2], child.1)

/-- The methods of a declaration with their places below it. -/
def placedMethods (declaration : Node) : List (Position × Node) :=
  match declaration.firstChild? isBody with
  | none => []
  | some (body, index) =>
      if declaration.type = "enum_declaration" then
        match body.firstChild? isEnumPart with
        | none => []
        | some (part, inner) => part.methodsBelow [index, inner]
      else body.methodsBelow [index]

theorem mem_methodsBelow_iff {node method : Node} {place position : Position} :
    (position, method) ∈ node.methodsBelow place ↔
      ∃ last, position = place ++ [last] ∧ node.children[last]? = some method ∧
        method.isMethod := by
  simp only [methodsBelow, List.mem_map, List.mem_filter, List.mem_zipIdx_iff_getElem?,
    Prod.mk.injEq]
  constructor
  · rintro ⟨⟨child, last⟩, ⟨hget, hmethod⟩, rfl, rfl⟩
    exact ⟨last, rfl, hget, hmethod⟩
  · rintro ⟨last, rfl, hget, hmethod⟩
    exact ⟨(method, last), ⟨hget, hmethod⟩, rfl, rfl⟩

theorem map_snd_methodsBelow (node : Node) (place : Position) :
    (node.methodsBelow place).map Prod.snd =
      node.namedChildren.filter (·.type == "method_declaration") := by
  have hchildren := List.filter_map (f := Prod.fst) (p := isMethod)
    (l := node.children.zipIdx)
  rw [List.zipIdx_map_fst] at hchildren
  rw [methodsBelow, List.map_map, namedChildren, List.filter_filter]
  exact hchildren.symm.trans (List.filter_congr fun child _ => Bool.and_comm _ _)

theorem inDocumentOrder_methodsBelow (node : Node) (place : Position) :
    InDocumentOrder (node.methodsBelow place) := by
  have hindices : (node.children.zipIdx.map Prod.snd).Pairwise (· < ·) := by
    rw [List.zipIdx_map_snd]
    exact List.pairwise_lt_range'
  refine List.pairwise_map.mpr (((List.pairwise_map.mp hindices).imp fun h => ?_).filter _)
  exact List.append_left_lt (List.cons_lt_cons_iff.mpr (Or.inl h))

/-- The listed methods of a declaration are its members. -/
theorem mem_placedMethods_iff {declaration method : Node} {position : Position} :
    (position, method) ∈ declaration.placedMethods ↔ declaration.IsMember position method := by
  constructor
  · intro hmem
    unfold placedMethods at hmem
    split at hmem
    · simp at hmem
    · rename_i body index hbody
      have hfirst := firstChild?_eq_some_iff.mp hbody
      split at hmem
      · rename_i henum
        split at hmem
        · simp at hmem
        · rename_i part inner hpart
          obtain ⟨last, rfl, hget, hmethod⟩ := mem_methodsBelow_iff.mp hmem
          exact .ofEnumBody henum hfirst (firstChild?_eq_some_iff.mp hpart) hget hmethod
      · rename_i henum
        obtain ⟨last, rfl, hget, hmethod⟩ := mem_methodsBelow_iff.mp hmem
        exact .ofBody henum hfirst hget hmethod
  · intro hmember
    cases hmember with
    | ofBody henum hfirst hget hmethod =>
        rw [placedMethods, firstChild?_eq_some_iff.mpr hfirst]
        simp only [henum, if_false]
        exact mem_methodsBelow_iff.mpr ⟨_, rfl, hget, hmethod⟩
    | ofEnumBody henum hfirst hpart hget hmethod =>
        rw [placedMethods, firstChild?_eq_some_iff.mpr hfirst]
        simp only [henum, if_true, firstChild?_eq_some_iff.mpr hpart]
        exact mem_methodsBelow_iff.mpr ⟨_, rfl, hget, hmethod⟩

/-- They are listed in document order. -/
theorem inDocumentOrder_placedMethods (declaration : Node) :
    InDocumentOrder declaration.placedMethods := by
  unfold placedMethods
  split
  · exact List.Pairwise.nil
  · split
    · split
      · exact List.Pairwise.nil
      · exact inDocumentOrder_methodsBelow _ _
    · exact inDocumentOrder_methodsBelow _ _

/-- They are the methods that the locator looks at. -/
theorem map_snd_placedMethods (declaration : Node) :
    declaration.placedMethods.map Prod.snd = declaration.memberMethods := by
  have hbody : declaration.childByField "body" =
      (declaration.firstChild? isBody).map Prod.fst :=
    (map_fst_firstChild? declaration isBody).symm
  unfold placedMethods memberMethods
  rw [hbody]
  cases declaration.firstChild? isBody with
  | none => rfl
  | some found =>
      obtain ⟨body, index⟩ := found
      have hpart : body.childOfType ["enum_body_declarations"] =
          (body.firstChild? isEnumPart).map Prod.fst := by
        rw [map_fst_firstChild?, childOfType]
        refine congrArg (List.find? · _) (funext fun child => Bool.eq_iff_iff.mpr ?_)
        simp [isEnumPart]
      simp only [Option.map_some, hpart]
      by_cases henum : declaration.type = "enum_declaration"
      · simp only [henum, if_true]
        cases body.firstChild? isEnumPart with
        | none => rfl
        | some part => exact map_snd_methodsBelow part.1 _
      · simp only [henum, if_false]
        exact map_snd_methodsBelow body _

end Members

end Syntax.Node
end JavaSketch
