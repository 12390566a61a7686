import JavaSketch.Proofs.Places
import JavaSketch.Variable.Summary

/-!
# The scopes of fields

The summary of a declaration looks the scope of a variable up by its name alone, in a
table of all field statements inside the declaration, those of nested types included.
Of two with one name the later one counts, so a nested type that repeats the name of a
field further down decides what is said of it.

**Results.**
* `mem_placedRecords_iff`, `map_snd_placedRecords`: the records with their places.
* `scopeOf_getD_lookup`: a name has the scope of the last field statement it stands in.
* `record_of_direct_field`: what the record of a field of the declaration itself says.
-/

namespace JavaSketch

open Syntax

/-- In a table made of things, a key leads to what the first thing with that key has. -/
theorem lookup_filterMap {α β : Type} {key : α → Option String} {value : α → β}
    {things : List α} (name : String) :
    (things.filterMap fun thing => (key thing).map (·, value thing)).lookup name =
      (things.find? (key · == some name)).map value := by
  induction things with
  | nil => rfl
  | cons first rest ih =>
      rw [List.filterMap_cons]
      cases hkey : key first with
      | none =>
          rw [List.find?_cons_of_neg (by simp [hkey])]
          exact ih
      | some other =>
          rw [Option.map_some, List.lookup_cons]
          by_cases hname : name = other
          · rw [List.find?_cons_of_pos (by simp [hkey, hname]), hname, beq_self_eq_true]
            rfl
          · rw [List.find?_cons_of_neg (by simp [hkey, Ne.symm hname]), beq_false_of_ne hname]
            exact ih

/-- The last of some things in document order that satisfies a condition. -/
theorem Syntax.InDocumentOrder.of_find?_reverse {α : Type} {places : List (Position × α)}
    (h : InDocumentOrder places) {p : Position × α → Bool} {last : Position × α}
    (hlast : places.reverse.find? p = some last) :
    last ∈ places ∧ p last ∧ ∀ place ∈ places, p place → ¬ last.1 < place.1 := by
  obtain ⟨hp, later, earlier, hreverse, hlater⟩ := List.find?_eq_some_iff_append.mp hlast
  have hplaces : places = earlier.reverse ++ last :: later.reverse := by
    rw [← List.reverse_reverse places, hreverse]
    simp
  refine ⟨by simp [hplaces], hp, fun place hplace hsatisfies => ?_⟩
  rw [hplaces, List.mem_append, List.mem_cons, List.mem_reverse, List.mem_reverse] at hplace
  rcases hplace with hearlier | rfl | hlate
  · rw [hplaces, InDocumentOrder, List.pairwise_append] at h
    exact List.lt_asymm
      (h.2.2 place (List.mem_reverse.mpr hearlier) last List.mem_cons_self)
  · exact List.lt_irrefl _
  · simpa [hsatisfies] using hlater place hlate

namespace Syntax.Node

/-- The condition on a child to be a declarator. -/
def isDeclarator (child : Node) : Bool :=
  child.field == some "declarator"

theorem IsFirstChild.declarator {node declarator : Node} {index : Nat}
    (h : node.IsFirstChild isDeclarator declarator index) :
    node.childByField "declarator" = some declarator := by
  have hfirst := map_fst_firstChild? node isDeclarator
  rw [firstChild?_eq_some_iff.mpr h] at hfirst
  exact hfirst.symm

/-- Whether a field statement is directly in the body of a declaration, at a place below
the declaration. -/
inductive HasDirectField (declaration : Node) : Position → Node → Prop
  | mk {body field : Node} {index last : Nat}
      (first : declaration.IsFirstChild isBody body index)
      (getElem? : body.children[last]? = some field) (isField : field.type ∈ fieldTypes) :
      HasDirectField declaration [index, last] field

theorem HasDirectField.isField {declaration field : Node} {place : Position}
    (h : declaration.HasDirectField place field) : field.type ∈ fieldTypes := by
  obtain ⟨_, _, hfield⟩ := h
  exact hfield

theorem HasDirectField.nodeAt?_eq {declaration field : Node} {place : Position}
    (h : declaration.HasDirectField place field) :
    declaration.nodeAt? place = some field := by
  obtain ⟨hfirst, hget, _⟩ := h
  simp [nodeAt?, siteAt?, Site.at?, Site.getElem?_children, hfirst.getElem?, hget]

/-- The field statements of a tree with their positions. -/
def placedFields (root : Node) : List (Position × Node) :=
  (root.placedSites.filter (fieldTypes.contains ·.2.node.type)).map fun place =>
    (place.1, place.2.node)

theorem mem_placedFields_iff {root field : Node} {position : Position} :
    (position, field) ∈ root.placedFields ↔
      root.nodeAt? position = some field ∧ field.type ∈ fieldTypes := by
  rw [placedFields, List.mem_map, nodeAt?, Option.map_eq_some_iff]
  constructor
  · rintro ⟨⟨_, site⟩, hplace, heq⟩
    obtain ⟨rfl, rfl⟩ := Prod.mk.inj heq
    obtain ⟨hplace, htype⟩ := List.mem_filter.mp hplace
    exact ⟨⟨site, mem_placedSites_iff.mp hplace, rfl⟩, List.contains_iff_mem.mp htype⟩
  · rintro ⟨⟨site, hsite, rfl⟩, htype⟩
    exact ⟨(position, site), List.mem_filter.mpr ⟨mem_placedSites_iff.mpr hsite,
      List.contains_iff_mem.mpr htype⟩, rfl⟩

theorem map_snd_placedFields (root : Node) :
    root.placedFields.map Prod.snd = root.findAll fieldTypes := by
  rw [findAll_eq_map_findSites, findSites, ← map_snd_placedSites, List.filter_map,
    placedFields, List.map_map, List.map_map]
  rfl

theorem inDocumentOrder_placedFields (root : Node) : InDocumentOrder root.placedFields :=
  List.pairwise_map.mpr ((inDocumentOrder_placedSites root).filter _)

end Syntax.Node

namespace Syntax.SourceUnit

variable {unit : SourceUnit} {declaration : Node} {name : String}

/-- The name of the first variable of a field statement. -/
def firstName (unit : SourceUnit) (field : Node) : Option String :=
  (field.childByField "declarator").map unit.declaredName

/-- Whether a field statement inside a tree has a first variable of a name. -/
structure HasField (unit : SourceUnit) (root : Node) (name : String) (place : Position)
    (field : Node) : Prop where
  nodeAt? : root.nodeAt? place = some field
  isField : field.type ∈ fieldTypes
  firstName : unit.firstName field = some name

/-- Whether no later field statement has a first variable of the same name. -/
structure HasLatestField (unit : SourceUnit) (root : Node) (name : String)
    (place : Position) (field : Node) : Prop extends unit.HasField root name place field where
  latest : ∀ other otherField, unit.HasField root name other otherField → ¬ place < other

/-- What the summary of a declaration says about a name. -/
inductive ScopeOf (unit : SourceUnit) (declaration : Node) (name : String) : String → Prop
  | field {place : Position} {field : Node}
      (latest : unit.HasLatestField declaration name place field) :
      ScopeOf unit declaration name field.fieldScope
  | method (none : ∀ place field, ¬ unit.HasField declaration name place field) :
      ScopeOf unit declaration name methodScope

theorem lookup_fieldScopes (unit : SourceUnit) (declaration : Node) (name : String) :
    (unit.fieldScopes declaration).lookup name =
      (declaration.placedFields.reverse.find? (unit.firstName ·.2 == some name)).map
        (·.2.fieldScope) := by
  have hentries : (fun field : Node => (field.childByField "declarator").map fun declarator =>
      (unit.declaredName declarator, field.fieldScope)) =
        fun field => (unit.firstName field).map (·, field.fieldScope) := by
    funext field
    rw [firstName, Option.map_map]
    rfl
  rw [fieldScopes, hentries, ← List.filterMap_reverse, lookup_filterMap,
    ← Node.map_snd_placedFields, ← List.map_reverse, List.find?_map, Option.map_map]
  rfl

/-- A name has the scope of the last field statement whose first variable it is. -/
theorem scopeOf_getD_lookup (unit : SourceUnit) (declaration : Node) (name : String) :
    unit.ScopeOf declaration name
      (((unit.fieldScopes declaration).lookup name).getD methodScope) := by
  rw [lookup_fieldScopes]
  cases hfind : declaration.placedFields.reverse.find? (unit.firstName ·.2 == some name) with
  | none =>
      refine .method fun place field hfield => ?_
      have hmem := Node.mem_placedFields_iff.mpr ⟨hfield.nodeAt?, hfield.isField⟩
      have hne := List.find?_eq_none.mp hfind _ (List.mem_reverse.mpr hmem)
      exact hne (beq_iff_eq.mpr hfield.firstName)
  | some last =>
      obtain ⟨place, field⟩ := last
      obtain ⟨hmem, hname, hlatest⟩ :=
        (Node.inDocumentOrder_placedFields declaration).of_find?_reverse hfind
      obtain ⟨hnode, htype⟩ := Node.mem_placedFields_iff.mp hmem
      refine .field ⟨⟨hnode, htype, beq_iff_eq.mp hname⟩, fun other otherField hother => ?_⟩
      exact hlatest (other, otherField)
        (Node.mem_placedFields_iff.mpr ⟨hother.nodeAt?, hother.isField⟩)
        (beq_iff_eq.mpr hother.firstName)

theorem exists_hasLatestField {place : Position} {field : Node}
    (h : unit.HasField declaration name place field) :
    ∃ latestPlace latest, unit.HasLatestField declaration name latestPlace latest := by
  have hscope := scopeOf_getD_lookup unit declaration name
  generalize ((unit.fieldScopes declaration).lookup name).getD methodScope = scope at hscope
  cases hscope with
  | field latest => exact ⟨_, _, latest⟩
  | method none => exact absurd h (none place field)

theorem HasLatestField.unique {place place' : Position} {field field' : Node}
    (h : unit.HasLatestField declaration name place field)
    (h' : unit.HasLatestField declaration name place' field') : field = field' := by
  obtain rfl : place = place' :=
    List.le_antisymm (List.not_lt.mp (h'.latest _ _ h.toHasField))
      (List.not_lt.mp (h.latest _ _ h'.toHasField))
  exact Option.some.inj (h.nodeAt?.symm.trans h'.nodeAt?)

/-- Where a name stands in a field statement, its scope is that of the latest. -/
theorem ScopeOf.eq_of_hasLatestField {place : Position} {field : Node} {scope : String}
    (h : unit.ScopeOf declaration name scope)
    (hlatest : unit.HasLatestField declaration name place field) :
    scope = field.fieldScope := by
  cases h with
  | field latest => rw [latest.unique hlatest]
  | method none => exact absurd hlatest.toHasField (none place field)

/-- What the summary of a declaration says about the variable at a site, if it counts. -/
def recordAt? (unit : SourceUnit) (declaration : Node) (site : Site) :
    Option VariableRecord :=
  (unit.variableType site).map fun declaredType =>
    ⟨unit.declaredName site.node, declaredType,
      ((unit.fieldScopes declaration).lookup (unit.declaredName site.node)).getD methodScope⟩

/-- The records of a declaration with the positions of the variables below it. -/
def placedRecords (unit : SourceUnit) (declaration : Node) :
    List (Position × VariableRecord) :=
  placedFilterMap (unit.recordAt? declaration)
    (declaration.placedSites.filter (variableTypes.contains ·.2.node.type))

theorem map_snd_placedRecords (unit : SourceUnit) (declaration : Node) :
    (unit.placedRecords declaration).map Prod.snd = (unit.summarize declaration).records := by
  rw [placedRecords, map_snd_placedFilterMap, summarize, Node.findSites,
    ← Node.map_snd_placedSites, List.filter_map]
  rfl

theorem mem_placedRecords_iff {position : Position} {record : VariableRecord} :
    (position, record) ∈ unit.placedRecords declaration ↔
      ∃ site, declaration.siteAt? position = some site ∧ site.node.type ∈ variableTypes ∧
        unit.recordAt? declaration site = some record := by
  simp only [placedRecords, mem_placedFilterMap_iff, List.mem_filter,
    Node.mem_placedSites_iff, List.contains_iff_mem, and_assoc]

theorem inDocumentOrder_placedRecords (unit : SourceUnit) (declaration : Node) :
    InDocumentOrder (unit.placedRecords declaration) :=
  ((Node.inDocumentOrder_placedSites declaration).filter _).placedFilterMap _

/-- The name and the scope of a record are those of its variable. -/
theorem scopeOf_of_mem_placedRecords {position : Position} {record : VariableRecord}
    (h : (position, record) ∈ unit.placedRecords declaration) :
    ∃ node, declaration.nodeAt? position = some node ∧ record.name = unit.declaredName node ∧
      unit.ScopeOf declaration record.name record.scope := by
  obtain ⟨site, hsite, _, hrecord⟩ := mem_placedRecords_iff.mp h
  obtain ⟨declaredType, _, rfl⟩ := Option.map_eq_some_iff.mp hrecord
  exact ⟨site.node, by rw [Node.nodeAt?, hsite, Option.map_some], rfl,
    scopeOf_getD_lookup unit declaration _⟩

/-- A declarator of a node that states a type has a record. -/
theorem exists_mem_placedRecords {owner declarator : Node} {place : Position} {last : Nat}
    (howner : declaration.nodeAt? place = some owner)
    (hdeclarator : owner.children[last]? = some declarator)
    (htype : declarator.type = "variable_declarator")
    (hstated : (owner.childByField "type").isSome) :
    ∃ record, (place ++ [last], record) ∈ unit.placedRecords declaration := by
  obtain ⟨site, hsite, rfl⟩ := Option.map_eq_some_iff.mp howner
  have hbelow : declaration.siteAt? (place ++ [last]) = some ⟨some site.node, declarator⟩ := by
    rw [Node.siteAt?_append hsite]
    simp [Site.at?, Site.getElem?_children, hdeclarator]
  have hcounts : ∃ declaredType, unit.variableType ⟨some site.node, declarator⟩ =
      some declaredType := by
    simp [variableType, htype, hstated]
  obtain ⟨declaredType, hvariable⟩ := hcounts
  exact ⟨_, mem_placedRecords_iff.mpr
    ⟨_, hbelow, by simp [htype, variableTypes], by rw [recordAt?, hvariable]; rfl⟩⟩

end Syntax.SourceUnit

/-- **The record of a field.**  The records of a declaration are those of the variables
inside it in document order.  Where no other field statement directly in the declaration
has a first variable of the same name, the record of the first variable of a field
statement has the words of the last field statement inside the declaration that has its
name: of the statement itself or of a later one, which then belongs to a type nested in
the declaration. -/
theorem record_of_direct_field {unit : SourceUnit} {declaration field declarator : Node}
    {place : Position} {last : Nat} (hfield : declaration.HasDirectField place field)
    (hfirst : field.IsFirstChild Node.isDeclarator declarator last)
    (hown : ∀ other otherField, declaration.HasDirectField other otherField →
      unit.firstName otherField = some (unit.declaredName declarator) → other = place) :
    (unit.placedRecords declaration).map Prod.snd = (unit.summarize declaration).records ∧
      InDocumentOrder (unit.placedRecords declaration) ∧
      (declarator.type = "variable_declarator" → (field.childByField "type").isSome →
        ∃ record, (place ++ [last], record) ∈ unit.placedRecords declaration) ∧
      ∃ latestPlace latest,
        unit.HasLatestField declaration (unit.declaredName declarator) latestPlace latest ∧
        (latestPlace = place ∧ latest = field ∨
          place < latestPlace ∧ ¬ declaration.HasDirectField latestPlace latest) ∧
        ∀ record, (place ++ [last], record) ∈ unit.placedRecords declaration →
          record.name = unit.declaredName declarator ∧ record.scope = latest.fieldScope := by
  have hname : unit.HasField declaration (unit.declaredName declarator) place field :=
    ⟨hfield.nodeAt?_eq, hfield.isField, by rw [SourceUnit.firstName, hfirst.declarator]; rfl⟩
  have hdeclarator : declaration.nodeAt? (place ++ [last]) = some declarator := by
    obtain ⟨site, hsite, rfl⟩ := Option.map_eq_some_iff.mp hfield.nodeAt?_eq
    rw [Node.nodeAt?, Node.siteAt?_append hsite]
    simp [Site.at?, Site.getElem?_children, hfirst.getElem?]
  refine ⟨unit.map_snd_placedRecords declaration,
    unit.inDocumentOrder_placedRecords declaration,
    SourceUnit.exists_mem_placedRecords hfield.nodeAt?_eq hfirst.getElem?, ?_⟩
  obtain ⟨latestPlace, latest, hlatest⟩ := SourceUnit.exists_hasLatestField hname
  refine ⟨latestPlace, latest, hlatest, ?_, fun record hrecord => ?_⟩
  · rcases List.le_iff_lt_or_eq.mp (List.not_lt.mp (hlatest.latest _ _ hname)) with
      hlater | heq
    · -- a later statement directly in the declaration would be this one
      refine Or.inr ⟨hlater, fun hdirect => ?_⟩
      rw [hown _ _ hdirect hlatest.firstName] at hlater
      exact List.lt_irrefl _ hlater
    · subst heq
      exact Or.inl ⟨rfl, Option.some.inj (hlatest.nodeAt?.symm.trans hname.nodeAt?)⟩
  · obtain ⟨node, hnode, hrecordName, hscope⟩ :=
      SourceUnit.scopeOf_of_mem_placedRecords hrecord
    obtain rfl := Option.some.inj (hnode.symm.trans hdeclarator)
    rw [hrecordName] at hscope
    exact ⟨hrecordName, hscope.eq_of_hasLatestField hlatest⟩

/-- The tree of a class with a field whose name a nested class repeats. -/
def repeatedFieldClass : Node :=
  ⟨"class_declaration", 0, 76, true, false, none,
    [⟨"class", 0, 5, false, false, none, []⟩,
      ⟨"identifier", 6, 7, true, false, some "name", []⟩,
      ⟨"class_body", 8, 76, true, false, some "body",
        [⟨"\x7b", 8, 9, false, false, none, []⟩,
          ⟨"field_declaration", 12, 25, true, false, none,
            [⟨"modifiers", 12, 18, true, false, none,
              [⟨"public", 12, 18, false, false, none, []⟩]⟩,
              ⟨"integral_type", 19, 22, true, false, some "type",
                [⟨"int", 19, 22, false, false, none, []⟩]⟩,
              ⟨"variable_declarator", 23, 24, true, false, some "declarator",
                [⟨"identifier", 23, 24, true, false, some "name", []⟩]⟩,
              ⟨";", 24, 25, false, false, none, []⟩]⟩,
          ⟨"class_declaration", 28, 74, true, false, none,
            [⟨"modifiers", 28, 34, true, false, none,
              [⟨"static", 28, 34, false, false, none, []⟩]⟩,
              ⟨"class", 35, 40, false, false, none, []⟩,
              ⟨"identifier", 41, 42, true, false, some "name", []⟩,
              ⟨"class_body", 43, 74, true, false, some "body",
                [⟨"\x7b", 43, 44, false, false, none, []⟩,
                  ⟨"field_declaration", 49, 70, true, false, none,
                    [⟨"modifiers", 49, 63, true, false, none,
                      [⟨"private", 49, 56, false, false, none, []⟩,
                        ⟨"static", 57, 63, false, false, none, []⟩]⟩,
                      ⟨"integral_type", 64, 67, true, false, some "type",
                        [⟨"int", 64, 67, false, false, none, []⟩]⟩,
                      ⟨"variable_declarator", 68, 69, true, false, some "declarator",
                        [⟨"identifier", 68, 69, true, false, some "name", []⟩]⟩,
                      ⟨";", 69, 70, false, false, none, []⟩]⟩,
                  ⟨"\x7d", 73, 74, false, false, none, []⟩]⟩]⟩,
          ⟨"\x7d", 75, 76, false, false, none, []⟩]⟩]⟩

/-- The text of the class, with its tree. -/
def repeatedField : SourceUnit :=
  { path := "A.java"
    text := "class A \x7b\n  public int x;\n  static class B \x7b\n    private static int x;\n  \x7d\n\x7d\n"
    root := ⟨"program", 0, 77, true, false, none, [repeatedFieldClass]⟩ }

/-- The class has one field statement directly in its body. -/
theorem place_eq_of_hasDirectField_repeatedFieldClass {place : Position} {field : Node}
    (h : repeatedFieldClass.HasDirectField place field) : place = [2, 1] := by
  obtain ⟨hfirst, hget, hfield⟩ := h
  have hbody := Node.firstChild?_eq_some_iff.mpr hfirst
  cases hbody
  rename_i last
  match last, hget with
  | 1, _ => rfl
  | 0, hget | 2, hget | 3, hget =>
      cases hget
      exact absurd hfield (by decide)

/-- That statement is public. -/
theorem hasDirectField_repeatedFieldClass :
    ∃ field declarator, repeatedFieldClass.HasDirectField [2, 1] field ∧
      field.IsFirstChild Node.isDeclarator declarator 2 ∧
      declarator.type = "variable_declarator" ∧ (field.childByField "type").isSome ∧
      field.fieldScope = "Public Non-static Non-final" :=
  ⟨_, _, .mk (Node.firstChild?_eq_some_iff.mp rfl) rfl (by decide),
    Node.firstChild?_eq_some_iff.mp rfl, rfl, rfl, by decide +kernel⟩

/-- The record of the outer field has the words of the last statement with its name. -/
theorem record_repeatedFieldClass :
    ∃ field declarator, repeatedFieldClass.HasDirectField [2, 1] field ∧
      field.IsFirstChild Node.isDeclarator declarator 2 ∧
      ∃ record latestPlace latest,
        ([2, 1, 2], record) ∈ repeatedField.placedRecords repeatedFieldClass ∧
        repeatedField.HasLatestField repeatedFieldClass
          (repeatedField.declaredName declarator) latestPlace latest ∧
        record.scope = latest.fieldScope := by
  obtain ⟨field, declarator, hfield, hfirst, htype, hstated, _⟩ :=
    hasDirectField_repeatedFieldClass
  obtain ⟨_, _, hrecorded, latestPlace, latest, hlatest, _, hscope⟩ :=
    record_of_direct_field hfield hfirst fun _ _ hother _ =>
      place_eq_of_hasDirectField_repeatedFieldClass hother
  obtain ⟨record, hrecord⟩ := hrecorded htype hstated
  exact ⟨field, declarator, hfield, hfirst, record, latestPlace, latest, hrecord, hlatest,
    (hscope record hrecord).2⟩

/-- A public field is shown as a private and static one. -/
theorem records_repeatedFieldClass :
    ∃ field declarator, repeatedFieldClass.HasDirectField [2, 1] field ∧
      field.IsFirstChild Node.isDeclarator declarator 2 ∧
      (∀ place other, repeatedFieldClass.HasDirectField place other → place = [2, 1]) ∧
      field.fieldScope = "Public Non-static Non-final" ∧
      repeatedField.placedRecords repeatedFieldClass =
        [([2, 1, 2], ⟨"x", "int", "Private Static Non-final"⟩),
          ([2, 2, 3, 1, 2], ⟨"x", "int", "Private Static Non-final"⟩)] ∧
      repeatedField.summaries.map (·.records.map (·.scope)) =
        [["Private Static Non-final", "Private Static Non-final"],
          ["Private Static Non-final"]] := by
  obtain ⟨field, declarator, hfield, hfirst, _, _, hscope⟩ :=
    hasDirectField_repeatedFieldClass
  refine ⟨field, declarator, hfield, hfirst,
    fun _ _ => place_eq_of_hasDirectField_repeatedFieldClass, hscope, ?_, ?_⟩
  · decide +kernel
  · decide +kernel

end JavaSketch
