import JavaSketch.Proofs.Traversal
import JavaSketch.Syntax.Canonical

/-!
# The tokens of a canonical text

A canonical text is put together in three ways: from tokens, from spaced parts, and from
parentheses around the text of one node.  Each of them adds spaces only, and leaves out
only the semicolons that end the parts of a spaced node.  Up to spaces, then, a canonical
text is its tokens in source order.

What this asks of a tree is that the signs are where the text shows them: a comma is put
down as `,`, parentheses as `(` and `)`, and a node with spaced parts has parts.

**Definitions.**
* `withoutSpaces`: a text without its spaces.
* `keptTokens`: the tokens of a node but for the semicolons left out.
* `SignsInPlace`: commas and parentheses are what a canonical text takes them for.

**Results.**
* `keptTokens_sublist_leafTokens`: kept tokens are tokens, in their order.
* `flatMap_visibleChars_partsWith`: what each further part adds.
* `withoutSpaces_canonicalText`: a canonical text is made of the kept tokens.
-/

namespace JavaSketch

open Syntax

namespace Text

/-- The characters of a text other than spaces. -/
def visibleChars (text : String) : List Char :=
  text.toList.filter (· ≠ ' ')

/-- A text without its spaces. -/
def withoutSpaces (text : String) : String :=
  String.ofList (visibleChars text)

@[simp] theorem visibleChars_empty : visibleChars "" = [] := rfl

@[simp] theorem visibleChars_append (first second : String) :
    visibleChars (first ++ second) = visibleChars first ++ visibleChars second := by
  simp [visibleChars]

theorem visibleChars_join {sep : String} (hsep : visibleChars sep = [])
    (texts : List String) : visibleChars (join sep texts) = texts.flatMap visibleChars := by
  induction texts with
  | nil => rfl
  | cons text rest ih =>
      cases rest with
      | nil => simp [join]
      | cons next rest => simp [join, hsep, ih]

theorem visibleChars_concatenation (texts : List String) :
    visibleChars (String.join texts) = texts.flatMap visibleChars := by
  rw [visibleChars, String.toList_join, List.filter_flatMap]
  rfl

end Text

namespace Syntax

namespace Node

mutual

/-- The tokens that the canonical text of a node keeps: all but the semicolons among the
spaced parts that it goes through. -/
def keptTokens : Node → List Node
  | ⟨type, start, stop, named, missing, field, children⟩ =>
      let node : Node := ⟨type, start, stop, named, missing, field, children⟩
      if type == parenthesizedType && children.any (·.named) then
        keptTokensOf false children
      else if spacedTypes.contains type then keptTokensOf true children
      else node.leafTokens

/-- The tokens kept of some nodes, which are spaced parts or not. -/
def keptTokensOf (spaced : Bool) : List Node → List Node
  | [] => []
  | child :: rest =>
      if spaced && child.type == ";" then keptTokensOf spaced rest
      else child.keptTokens ++ keptTokensOf spaced rest

end

theorem keptTokens_eq (node : Node) :
    node.keptTokens =
      if node.type == parenthesizedType && node.children.any (·.named) then
        keptTokensOf false node.children
      else if spacedTypes.contains node.type then keptTokensOf true node.children
      else node.leafTokens := by
  cases node
  rfl

theorem keptTokensOf_false (nodes : List Node) :
    keptTokensOf false nodes = nodes.flatMap keptTokens := by
  induction nodes with
  | nil => rfl
  | cons child rest ih => simp [keptTokensOf, ih]

theorem keptTokensOf_sublist {nodes : List Node}
    (h : ∀ child ∈ nodes, child.keptTokens.Sublist child.leafTokens) (spaced : Bool) :
    (keptTokensOf spaced nodes).Sublist (leafTokensOf nodes) := by
  induction nodes with
  | nil => exact List.Sublist.refl _
  | cons child rest ih =>
      have hrest := ih fun node hnode => h node (List.mem_cons_of_mem child hnode)
      unfold keptTokensOf leafTokensOf
      split
      · exact List.sublist_append_of_sublist_right hrest
      · exact (h child List.mem_cons_self).append hrest

/-- The tokens of a node with spaced or enclosed parts are those of its parts. -/
theorem leafTokens_of_composite {node : Node}
    (htype : node.type ∈ parenthesizedType :: spacedTypes) (hparts : node.children ≠ []) :
    node.leafTokens = leafTokensOf node.children := by
  have hatomic : ∀ type ∈ parenthesizedType :: spacedTypes,
      commentTypes.contains type = false ∧ literalTypes.contains type = false := by decide
  obtain ⟨hcomment, hliteral⟩ := hatomic node.type htype
  rw [leafTokens_eq, isComment, isLiteral, hcomment, hliteral]
  simp [hparts]

theorem keptTokensOf_children_sublist {node : Node}
    (h : ∀ child ∈ node.children, child.keptTokens.Sublist child.leafTokens)
    (htype : node.type ∈ parenthesizedType :: spacedTypes) (spaced : Bool) :
    (keptTokensOf spaced node.children).Sublist node.leafTokens := by
  by_cases hparts : node.children = []
  · rw [hparts]
    exact List.nil_sublist _
  · rw [leafTokens_of_composite htype hparts]
    exact keptTokensOf_sublist h spaced

/-- Kept tokens are tokens of the node, in the same order. -/
theorem keptTokens_sublist_leafTokens (node : Node) :
    node.keptTokens.Sublist node.leafTokens := by
  induction node using Node.induction with
  | node node ih =>
      rw [keptTokens_eq]
      split
      · rename_i hparens
        simp only [Bool.and_eq_true, beq_iff_eq] at hparens
        exact keptTokensOf_children_sublist ih (by simp [hparens.1]) false
      · split
        · rename_i hspaced
          exact keptTokensOf_children_sublist ih
            (List.mem_cons_of_mem _ (List.contains_iff_mem.mp hspaced)) true
        · exact List.Sublist.refl _

end Node

namespace SourceUnit

variable {unit : SourceUnit}

/-- The characters of some tokens other than spaces. -/
def visibleTokens (unit : SourceUnit) (tokens : List Node) : List Char :=
  tokens.flatMap fun token => Text.visibleChars (unit.nodeText token)

@[simp] theorem visibleTokens_append (first second : List Node) :
    unit.visibleTokens (first ++ second) =
      unit.visibleTokens first ++ unit.visibleTokens second :=
  List.flatMap_append

theorem visibleChars_joinTokensFrom (last : Option Nat) (tokens : List Node) :
    Text.visibleChars (unit.joinTokensFrom last tokens) = unit.visibleTokens tokens := by
  have hgap : ∀ gapped : Bool, Text.visibleChars (if gapped then " " else "") = [] := by
    decide
  induction tokens generalizing last with
  | nil => rfl
  | cons token rest ih =>
      by_cases hempty : unit.nodeText token = ""
      · rw [joinTokensFrom_of_empty hempty, ih]
        simp [visibleTokens, hempty]
      · simp [joinTokensFrom, hempty, hgap, ih, visibleTokens]

/-- A sign: a leaf that is no comment and has a given text. -/
def IsSign (unit : SourceUnit) (text : String) (node : Node) : Prop :=
  node.children = [] ∧ node.isComment = false ∧ unit.nodeText node = text

instance (text : String) (node : Node) : Decidable (unit.IsSign text node) :=
  inferInstanceAs (Decidable (_ ∧ _))

theorem IsSign.leafTokens_eq {text : String} {node : Node} (h : unit.IsSign text node) :
    node.leafTokens = [node] := by
  simp [Node.leafTokens_eq, h.1, h.2.1]

/-- Whether some nodes are parentheses around one node, with comments after it. -/
def Encloses (unit : SourceUnit) : List Node → Prop
  | opening :: content :: rest =>
      (unit.IsSign "(" opening ∧ opening.named = false) ∧
      (content.named = true ∧ content.isComment = false) ∧
      (∀ node ∈ rest.dropLast, node.isComment) ∧
      ∃ closing ∈ rest.getLast?, unit.IsSign ")" closing ∧ closing.named = false
  | _ => False

instance : (nodes : List Node) → Decidable (unit.Encloses nodes)
  | [] => isFalse nofun
  | [_] => isFalse nofun
  | _ :: _ :: _ => inferInstanceAs (Decidable (_ ∧ _))

theorem Encloses.exists_eq {children : List Node} (h : unit.Encloses children) :
    ∃ opening content comments closing,
      children = opening :: content :: (comments ++ [closing]) ∧
      (unit.IsSign "(" opening ∧ opening.named = false) ∧ content.named = true ∧
      (∀ node ∈ comments, node.isComment) ∧ unit.IsSign ")" closing := by
  match children, h with
  | opening :: content :: rest, ⟨hopening, hcontent, hcomments, closing, hlast, hclosing⟩ =>
      obtain ⟨comments, rfl⟩ := List.getLast?_eq_some_iff.mp hlast
      rw [List.dropLast_concat] at hcomments
      exact ⟨opening, content, comments, closing, rfl, hopening, hcontent.1, hcomments,
        hclosing.1⟩

/-- What a canonical text takes the commas and parentheses of a node for, and that a node
with spaced parts has parts. -/
structure SignsInPlace (unit : SourceUnit) (node : Node) : Prop where
  comma : node.type = "," → unit.IsSign "," node
  parts : node.type ∈ spacedTypes → node.children ≠ []
  parens : node.type = parenthesizedType → node.children.any (·.named) →
    unit.Encloses node.children

instance (node : Node) : Decidable (unit.SignsInPlace node) :=
  decidable_of_iff
    ((node.type = "," → unit.IsSign "," node) ∧
      (node.type ∈ spacedTypes → node.children ≠ []) ∧
      (node.type = parenthesizedType → node.children.any (·.named) →
        unit.Encloses node.children))
    ⟨fun ⟨comma, parts, parens⟩ => ⟨comma, parts, parens⟩,
      fun h => ⟨h.comma, h.parts, h.parens⟩⟩

theorem IsSign.visibleTokens_eq {text : String} {node : Node} (h : unit.IsSign text node)
    (hplace : unit.SignsInPlace node) :
    unit.visibleTokens node.keptTokens = Text.visibleChars text := by
  have hspaced : spacedTypes.contains node.type = false := by
    simpa using fun htype => hplace.parts htype h.1
  have hkept : node.keptTokens = [node] := by
    rw [Node.keptTokens_eq, h.1, hspaced, h.leafTokens_eq]
    simp
  simp [hkept, visibleTokens, h.2.2]

/-- The spaced parts once a further child is among them: a comma goes to the latest one. -/
def partsWith (unit : SourceUnit) (done : List String) (child : Node) : List String :=
  if child.type = ";" then done
  else if child.type = "," ∧ done ≠ [] then done.modifyHead (· ++ ",")
  else if unit.canonicalText child = "" then done
  else unit.canonicalText child :: done

theorem canonicalParts_cons (done : List String) (child : Node) (rest : List Node) :
    unit.canonicalParts done (child :: rest) =
      unit.canonicalParts (unit.partsWith done child) rest := by
  rw [canonicalParts, partsWith]
  by_cases hsemicolon : child.type = ";"
  · rw [if_pos hsemicolon, if_pos hsemicolon]
  by_cases hcomma : child.type = "," ∧ done ≠ []
  · rw [if_neg hsemicolon, if_neg hsemicolon, if_pos hcomma, if_pos hcomma]
  rw [if_neg hsemicolon, if_neg hsemicolon, if_neg hcomma, if_neg hcomma]
  by_cases hempty : unit.canonicalText child = ""
  · simp [hempty]
  · simp [hempty]

/-- What a child adds to the parts, up to spaces. -/
theorem flatMap_visibleChars_partsWith (done : List String) {child : Node}
    (hplace : unit.SignsInPlace child)
    (htokens : Text.visibleChars (unit.canonicalText child) =
      unit.visibleTokens child.keptTokens) :
    (unit.partsWith done child).reverse.flatMap Text.visibleChars =
      done.reverse.flatMap Text.visibleChars ++
        unit.visibleTokens (if child.type = ";" then [] else child.keptTokens) := by
  unfold partsWith
  by_cases hsemicolon : child.type = ";"
  · simp [hsemicolon, visibleTokens]
  rw [if_neg hsemicolon, if_neg hsemicolon]
  by_cases hcomma : child.type = "," ∧ done ≠ []
  · -- The comma is glued to the latest part, and so comes after all of them.
    obtain ⟨text, texts, rfl⟩ := List.exists_cons_of_ne_nil hcomma.2
    have hsign := (hplace.comma hcomma.1).visibleTokens_eq hplace
    simp [hcomma.1, hsign]
  rw [if_neg hcomma, ← htokens]
  by_cases hempty : unit.canonicalText child = ""
  · simp [hempty]
  · simp [hempty]

theorem flatMap_visibleChars_canonicalParts (done : List String) {nodes : List Node}
    (hplace : ∀ child ∈ nodes, unit.SignsInPlace child)
    (htokens : ∀ child ∈ nodes,
      Text.visibleChars (unit.canonicalText child) = unit.visibleTokens child.keptTokens) :
    (unit.canonicalParts done nodes).flatMap Text.visibleChars =
      done.reverse.flatMap Text.visibleChars ++
        unit.visibleTokens (Node.keptTokensOf true nodes) := by
  induction nodes generalizing done with
  | nil => simp [canonicalParts, Node.keptTokensOf, visibleTokens]
  | cons child rest ih =>
      have hstep := flatMap_visibleChars_partsWith done (hplace child List.mem_cons_self)
        (htokens child List.mem_cons_self)
      have hrest := ih (unit.partsWith done child)
        (fun node hnode => hplace node (List.mem_cons_of_mem child hnode))
        (fun node hnode => htokens node (List.mem_cons_of_mem child hnode))
      have hkept : Node.keptTokensOf true (child :: rest) =
          (if child.type = ";" then [] else child.keptTokens) ++
            Node.keptTokensOf true rest := by
        by_cases hsemicolon : child.type = ";" <;> simp [Node.keptTokensOf, hsemicolon]
      rw [canonicalParts_cons, hrest, hstep, hkept, visibleTokens_append, List.append_assoc]

theorem visibleChars_canonicalFirstNamed {children : List Node}
    (h : unit.Encloses children) (hplace : ∀ child ∈ children, unit.SignsInPlace child)
    (htokens : ∀ child ∈ children,
      Text.visibleChars (unit.canonicalText child) = unit.visibleTokens child.keptTokens) :
    Text.visibleChars ("(" ++ unit.canonicalFirstNamed children ++ ")") =
      unit.visibleTokens (Node.keptTokensOf false children) := by
  obtain ⟨opening, content, comments, closing, rfl, ⟨hopening, hunnamed⟩, hnamed, hcomments,
    hclosing⟩ := h.exists_eq
  have hopen := hopening.visibleTokens_eq (hplace opening (by simp))
  have hclose := hclosing.visibleTokens_eq (hplace closing (by simp))
  have hnone : comments.flatMap Node.keptTokens = [] := by
    rw [List.flatMap_eq_nil_iff]
    intro comment hmem
    have hsublist := comment.keptTokens_sublist_leafTokens
    rw [Node.leafTokens_of_comment (hcomments comment hmem)] at hsublist
    exact List.sublist_nil.mp hsublist
  have hfirst : unit.canonicalFirstNamed
      (opening :: content :: (comments ++ [closing])) = unit.canonicalText content := by
    simp [canonicalFirstNamed, hunnamed, hnamed]
  rw [hfirst, Node.keptTokensOf_false]
  simp [hnone, htokens, hopen, hclose]

/-- The characters of a canonical text other than spaces, in their order. -/
theorem visibleChars_canonicalText {node : Node}
    (h : ∀ inner ∈ node.preorder, unit.SignsInPlace inner) :
    Text.visibleChars (unit.canonicalText node) = unit.visibleTokens node.keptTokens := by
  induction node using Node.induction with
  | node node ih =>
      have hplace : ∀ child ∈ node.children, unit.SignsInPlace child := fun child hchild =>
        h child (Node.child_mem_preorder hchild)
      have htokens : ∀ child ∈ node.children, Text.visibleChars (unit.canonicalText child) =
          unit.visibleTokens child.keptTokens := fun child hchild =>
        ih child hchild fun inner hinner =>
          h inner (Node.mem_preorder_of_mem_children hchild hinner)
      rw [canonicalText_eq, Node.keptTokens_eq]
      split
      · rename_i hparens
        simp only [Bool.and_eq_true, beq_iff_eq] at hparens
        have henclosed := (h node node.mem_preorder_self).parens hparens.1 hparens.2
        exact visibleChars_canonicalFirstNamed henclosed hplace htokens
      · split
        · have hparts := flatMap_visibleChars_canonicalParts [] hplace htokens
          rw [Text.visibleChars_join (by decide), hparts]
          rfl
        · exact visibleChars_joinTokensFrom none _

/-- **No token is lost, doubled or moved.**  The kept tokens of a node are its tokens in
their order, without those of the semicolons of the spaced nodes that its canonical text
goes through.  Up to spaces, the canonical text is what they read one after the other. -/
theorem withoutSpaces_canonicalText (unit : SourceUnit) (node : Node)
    (h : ∀ inner ∈ node.preorder, unit.SignsInPlace inner) :
    node.keptTokens.Sublist node.leafTokens ∧
      Text.withoutSpaces (unit.canonicalText node) =
        Text.withoutSpaces (String.join (node.keptTokens.map unit.nodeText)) := by
  refine ⟨node.keptTokens_sublist_leafTokens, ?_⟩
  have htokens : Text.visibleChars (String.join (node.keptTokens.map unit.nodeText)) =
      unit.visibleTokens node.keptTokens := by
    rw [Text.visibleChars_concatenation, List.flatMap_map, visibleTokens]
  rw [Text.withoutSpaces, Text.withoutSpaces, visibleChars_canonicalText h, htokens]

end SourceUnit
end Syntax

/-- The text of a declaration of two variables, one with a comment in its value, with its
tree. -/
def twoVariables : SourceUnit :=
  { path := "Sum.java"
    text := "int x=( a+b/*c*/),y ;"
    root :=
      ⟨"local_variable_declaration", 0, 21, true, false, none,
        [⟨"integral_type", 0, 3, true, false, some "type",
          [⟨"int", 0, 3, false, false, none, []⟩]⟩,
          ⟨"variable_declarator", 4, 17, true, false, some "declarator",
            [⟨"identifier", 4, 5, true, false, some "name", []⟩,
              ⟨"=", 5, 6, false, false, none, []⟩,
              ⟨"parenthesized_expression", 6, 17, true, false, some "value",
                [⟨"(", 6, 7, false, false, none, []⟩,
                  ⟨"binary_expression", 8, 11, true, false, none,
                    [⟨"identifier", 8, 9, true, false, some "left", []⟩,
                      ⟨"+", 9, 10, false, false, none, []⟩,
                      ⟨"identifier", 10, 11, true, false, some "right", []⟩]⟩,
                  ⟨"block_comment", 11, 16, true, false, none, []⟩,
                  ⟨")", 16, 17, false, false, none, []⟩]⟩]⟩,
          ⟨",", 17, 18, false, false, none, []⟩,
          ⟨"variable_declarator", 18, 19, true, false, some "declarator",
            [⟨"identifier", 18, 19, true, false, some "name", []⟩]⟩,
          ⟨";", 20, 21, false, false, none, []⟩]⟩ }

theorem withoutSpaces_twoVariables :
    (∀ inner ∈ twoVariables.root.preorder, twoVariables.SignsInPlace inner) ∧
      twoVariables.root.leafTokens.length = 11 ∧
      twoVariables.canonicalText twoVariables.root = "int x = (a + b), y" ∧
      twoVariables.root.keptTokens.Sublist twoVariables.root.leafTokens ∧
      Text.withoutSpaces "int x = (a + b), y" =
        Text.withoutSpaces
          (String.join ["int", "x", "=", "(", "a", "+", "b", ")", ",", "y"]) := by
  have hplace : ∀ inner ∈ twoVariables.root.preorder, twoVariables.SignsInPlace inner := by
    decide +kernel
  have hcanonical : twoVariables.canonicalText twoVariables.root = "int x = (a + b), y" := by
    decide +kernel
  have hkept : twoVariables.root.keptTokens.map twoVariables.nodeText =
      ["int", "x", "=", "(", "a", "+", "b", ")", ",", "y"] := by decide +kernel
  obtain ⟨hsublist, htext⟩ :=
    twoVariables.withoutSpaces_canonicalText twoVariables.root hplace
  rw [hcanonical, hkept] at htext
  exact ⟨hplace, by decide +kernel, hcanonical, hsublist, htext⟩

end JavaSketch
