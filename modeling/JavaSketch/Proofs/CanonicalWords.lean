import JavaSketch.Proofs.CanonicalTokens
import JavaSketch.Proofs.LineFeeds
import JavaSketch.Proofs.Locating

/-!
# The words of a canonical text

The bound and the counter of a loop are words of canonical texts, which are found by
cutting these texts at single spaces.  A text that is cut at blanks instead can give other
words: it may begin or end with a blank, have several of them in a row, or blanks other than
the space.  A canonical text does not, as long as its tokens have no blanks themselves.

**Invariant.**  Every text on the way to a canonical text is empty or a phrase, that is, a
sequence of words with one space between neighbours.  A space is only put down between two
texts that are not empty, and everything else is put side by side without a blank.

**Definitions.**
* `IsWord`, `IsPhrase`: texts without blanks, and with single spaces between such texts.
* `TokensHaveNoBlanks`: what is asked of a tree.
* `OpensTo`: the nodes of a tree that are not inside its comments and literals.

**Results.**
* `IsPhrase.append`, `IsPhrase.append_space`: phrases side by side and with a space between.
* `isPhrase_or_empty_canonicalText`: a canonical text is empty or a phrase.
* `forLoop_eq`: what a loop is made of, in words cut at blanks.
* `loop_words`: both, and when a loop is passed over.
-/

namespace JavaSketch

open Syntax

namespace Text

/-- Whether a text is one word: it is not empty and has no blanks. -/
def IsWord (text : String) : Prop :=
  text ≠ "" ∧ ∀ c ∈ text.toList, isBlank c = false

instance (text : String) : Decidable (IsWord text) :=
  decidable_of_iff (text ≠ "" ∧ text.toList.all (!isBlank ·)) (by simp [IsWord])

/-- Whether a text is a phrase: single spaces cut it into words. -/
def IsPhrase (text : String) : Prop :=
  ∀ piece ∈ split ' ' text, IsWord piece

theorem isPhrase_iff {text : String} :
    IsPhrase text ↔ ∀ piece ∈ pieces ' ' text.toList,
      piece ≠ [] ∧ ∀ c ∈ piece, isBlank c = false := by
  have hword : ∀ chars : List Char, IsWord (String.ofList chars) ↔
      chars ≠ [] ∧ ∀ c ∈ chars, isBlank c = false := by
    intro chars
    simp [IsWord]
  simp only [IsPhrase, split, List.forall_mem_map, hword]

theorem IsWord.isPhrase {text : String} (h : IsWord text) : IsPhrase text := by
  have hspace : ' ' ∉ text.toList := fun hmem => absurd (h.2 ' ' hmem) (by decide)
  rw [isPhrase_iff, pieces_of_not_mem hspace]
  rintro piece hpiece
  obtain rfl := List.mem_singleton.mp hpiece
  exact ⟨by simpa using h.1, h.2⟩

/-- Two phrases side by side are a phrase, in which two of their words are one. -/
theorem IsPhrase.append {first second : String} (hfirst : IsPhrase first)
    (hsecond : IsPhrase second) : IsPhrase (first ++ second) := by
  rw [isPhrase_iff] at hfirst hsecond ⊢
  obtain ⟨init, last, next, rest, hlast, hnext, hall⟩ :=
    exists_pieces_append ' ' first.toList second.toList
  rw [hlast] at hfirst
  rw [hnext] at hsecond
  rw [String.toList_append, hall]
  intro piece hpiece
  rcases List.mem_append.mp hpiece with hinit | hrest
  · exact hfirst piece (List.mem_append_left _ hinit)
  rcases List.mem_cons.mp hrest with rfl | hrest
  · obtain ⟨hne, hblank⟩ := hfirst last (by simp)
    refine ⟨by simp [hne], fun c hc => ?_⟩
    rcases List.mem_append.mp hc with hc | hc
    · exact hblank c hc
    · exact (hsecond next List.mem_cons_self).2 c hc
  · exact hsecond piece (List.mem_cons_of_mem next hrest)

theorem IsPhrase.append_space {first second : String} (hfirst : IsPhrase first)
    (hsecond : IsPhrase second) : IsPhrase (first ++ " " ++ second) := by
  rw [isPhrase_iff] at hfirst hsecond ⊢
  have hpieces : pieces ' ' (first ++ " " ++ second).toList =
      pieces ' ' first.toList ++ pieces ' ' second.toList := by
    rw [← pieces_append_separated]
    simp
  rw [hpieces]
  intro piece hpiece
  rcases List.mem_append.mp hpiece with hpiece | hpiece
  · exact hfirst piece hpiece
  · exact hsecond piece hpiece

theorem isPhrase_join {texts : List String} (hne : texts ≠ [])
    (h : ∀ text ∈ texts, IsPhrase text) : IsPhrase (join " " texts) := by
  induction texts with
  | nil => exact absurd rfl hne
  | cons text rest ih =>
      have htext := h text List.mem_cons_self
      cases rest with
      | nil => exact htext
      | cons next rest =>
          have hrest := ih (List.cons_ne_nil next rest) fun other hother =>
            h other (List.mem_cons_of_mem text hother)
          exact htext.append_space hrest

theorem join_split (sep : Char) (text : String) :
    join (String.singleton sep) (split sep text) = text := by
  have hjoin := toList_join_singleton sep (split sep text)
  rw [split, List.map_map] at hjoin
  apply String.toList_inj.mp
  rw [split, hjoin]
  simpa [Function.comp_def] using joinWith_pieces sep text.toList

theorem piecesWhere_congr {sep sep' : Char → Bool} {cs : List Char}
    (h : ∀ c ∈ cs, sep c = sep' c) : piecesWhere sep cs = piecesWhere sep' cs := by
  induction cs with
  | nil => rfl
  | cons c cs ih =>
      have hrest := ih fun d hd => h d (List.mem_cons_of_mem c hd)
      rw [piecesWhere, piecesWhere, h c List.mem_cons_self, hrest]

/-- Every character but the separators is in one of the pieces. -/
theorem exists_mem_pieces {sep c : Char} {cs : List Char} (hc : c ∈ cs) (hne : c ≠ sep) :
    ∃ piece ∈ pieces sep cs, c ∈ piece := by
  obtain ⟨front, back, rfl⟩ := List.append_of_mem hc
  obtain ⟨init, last, first, rest, _, hback, hall⟩ :=
    exists_pieces_append sep front (c :: back)
  obtain ⟨piece, more, _, hcons⟩ := pieces_cons_of_ne hne back
  obtain ⟨rfl, rfl⟩ := List.cons.inj (hback.symm.trans hcons)
  refine ⟨last ++ c :: piece, ?_, by simp⟩
  rw [hall]
  simp

/-- The words of a phrase are what single spaces cut it into. -/
theorem IsPhrase.words_eq {text : String} (h : IsPhrase text) :
    words text = split ' ' text := by
  have hpieces := isPhrase_iff.mp h
  have hblank : ∀ c ∈ text.toList, isBlank c = (c == ' ') := by
    intro c hc
    by_cases hspace : c = ' '
    · subst hspace
      decide
    · obtain ⟨piece, hpiece, hmem⟩ := exists_mem_pieces hc hspace
      rw [(hpieces piece hpiece).2 c hmem, beq_eq_false_iff_ne.mpr hspace]
  have hfull : (pieces ' ' text.toList).filter (· ≠ []) = pieces ' ' text.toList :=
    List.filter_eq_self.mpr fun piece hpiece => by simpa using (hpieces piece hpiece).1
  rw [words, piecesWhere_congr hblank, split]
  exact congrArg _ hfull

theorem words_empty : words "" = [] := by decide

/-- Words stand for themselves with one space between neighbours. -/
theorem join_words {text : String} (h : text = "" ∨ IsPhrase text) :
    join " " (words text) = text := by
  rcases h with rfl | hphrase
  · rw [words_empty]
    rfl
  · rw [hphrase.words_eq]
    exact join_split ' ' text

theorem isWord_of_mem_words {text word : String} (h : text = "" ∨ IsPhrase text)
    (hword : word ∈ words text) : IsWord word := by
  rcases h with rfl | hphrase
  · simp [words_empty] at hword
  · rw [hphrase.words_eq] at hword
    exact hphrase word hword

/-- From the second one on the pieces between single spaces are the words; only the empty
text has a first piece that is none. -/
theorem getElem?_split {text : String} (h : text = "" ∨ IsPhrase text) {index : Nat}
    (hindex : 1 ≤ index) : (split ' ' text)[index]? = (words text)[index]? := by
  rcases h with rfl | hphrase
  · have hsplit : split ' ' "" = [""] := by decide
    rw [hsplit, words_empty, List.getElem?_eq_none hindex, List.getElem?_nil]
  · rw [hphrase.words_eq]

end Text

namespace Syntax

namespace Node

/-- Whether a node is at or below another one and not inside a comment or a literal there. -/
inductive OpensTo : Node → Node → Prop
  | self (node : Node) : OpensTo node node
  | inside {node child inner : Node} (hcomment : node.isComment = false)
      (hliteral : node.isLiteral = false) (hchild : child ∈ node.children)
      (hinner : OpensTo child inner) : OpensTo node inner

theorem leafTokens_subset_leafTokensOf {child : Node} {nodes : List Node}
    (h : child ∈ nodes) : child.leafTokens ⊆ leafTokensOf nodes := by
  induction nodes with
  | nil => exact absurd h List.not_mem_nil
  | cons first rest ih =>
      intro token htoken
      rw [leafTokensOf, List.mem_append]
      rcases List.mem_cons.mp h with rfl | hrest
      · exact Or.inl htoken
      · exact Or.inr (ih hrest htoken)

/-- The tokens of a node outside comments and literals are tokens of the tree. -/
theorem OpensTo.leafTokens_subset {tree node : Node} (h : tree.OpensTo node) :
    node.leafTokens ⊆ tree.leafTokens := by
  induction h with
  | self node => exact List.Subset.refl _
  | @inside node child inner hcomment hliteral hchild _ ih =>
      have hparts : node.children.isEmpty = false := by
        simpa using List.ne_nil_of_mem hchild
      rw [leafTokens_eq node, hcomment, hliteral, hparts]
      exact List.Subset.trans ih (leafTokens_subset_leafTokensOf hchild)

end Node

namespace SourceUnit

variable {unit : SourceUnit}

/-- Whether no token of a node has a blank in its text; a literal is a single token. -/
def TokensHaveNoBlanks (unit : SourceUnit) (node : Node) : Prop :=
  ∀ token ∈ node.leafTokens, ∀ c ∈ (unit.nodeText token).toList, Text.isBlank c = false

instance (node : Node) : Decidable (unit.TokensHaveNoBlanks node) :=
  decidable_of_iff
    (node.leafTokens.all fun token => (unit.nodeText token).toList.all (!Text.isBlank ·))
    (by simp [TokensHaveNoBlanks])

theorem TokensHaveNoBlanks.of_opensTo {tree node : Node} (h : unit.TokensHaveNoBlanks tree)
    (hnode : tree.OpensTo node) : unit.TokensHaveNoBlanks node :=
  fun token htoken => h token (hnode.leafTokens_subset htoken)

theorem TokensHaveNoBlanks.of_mem_children {node child : Node}
    (h : unit.TokensHaveNoBlanks node) (htype : node.type ∈ parenthesizedType :: spacedTypes)
    (hchild : child ∈ node.children) : unit.TokensHaveNoBlanks child := by
  intro token htoken
  refine h token ?_
  rw [Node.leafTokens_of_composite htype (List.ne_nil_of_mem hchild)]
  exact Node.leafTokens_subset_leafTokensOf hchild htoken

section Invariant

/-- Tokens behind a phrase go on with its last word or, after a gap, with a new one. -/
theorem isPhrase_append_joinTokensFrom {tokens : List Node}
    (h : ∀ token ∈ tokens, ∀ c ∈ (unit.nodeText token).toList, Text.isBlank c = false)
    {front : String} (hfront : Text.IsPhrase front) (last : Nat) :
    Text.IsPhrase (front ++ unit.joinTokensFrom (some last) tokens) := by
  induction tokens generalizing front last with
  | nil => simpa [joinTokensFrom] using hfront
  | cons token rest ih =>
      have hrest := fun other hother => h other (List.mem_cons_of_mem token hother)
      by_cases hempty : unit.nodeText token = ""
      · rw [joinTokensFrom_of_empty hempty]
        exact ih hrest hfront last
      · have htoken : Text.IsPhrase (unit.nodeText token) :=
          Text.IsWord.isPhrase ⟨hempty, h token List.mem_cons_self⟩
        simp only [joinTokensFrom, if_neg hempty, ← String.append_assoc]
        by_cases hgap : (some last).any (· < token.start) = true
        · rw [if_pos hgap]
          exact ih hrest (hfront.append_space htoken) token.stop
        · rw [if_neg hgap, String.append_empty]
          exact ih hrest (hfront.append htoken) token.stop

theorem isPhrase_or_empty_joinTokensFrom {tokens : List Node}
    (h : ∀ token ∈ tokens, ∀ c ∈ (unit.nodeText token).toList, Text.isBlank c = false) :
    unit.joinTokensFrom none tokens = "" ∨ Text.IsPhrase (unit.joinTokensFrom none tokens) := by
  induction tokens with
  | nil => exact Or.inl rfl
  | cons token rest ih =>
      have hrest := fun other hother => h other (List.mem_cons_of_mem token hother)
      by_cases hempty : unit.nodeText token = ""
      · rw [joinTokensFrom_of_empty hempty]
        exact ih hrest
      · have htoken : Text.IsPhrase (unit.nodeText token) :=
          Text.IsWord.isPhrase ⟨hempty, h token List.mem_cons_self⟩
        refine Or.inr ?_
        simpa [joinTokensFrom, hempty] using
          isPhrase_append_joinTokensFrom hrest htoken token.stop

theorem isPhrase_parenthesized {text : String} (h : text = "" ∨ Text.IsPhrase text) :
    Text.IsPhrase ("(" ++ text ++ ")") := by
  have hopening : Text.IsPhrase "(" := Text.IsWord.isPhrase (by decide)
  have hclosing : Text.IsPhrase ")" := Text.IsWord.isPhrase (by decide)
  rcases h with rfl | hphrase
  · exact hopening.append hclosing
  · exact (hopening.append hphrase).append hclosing

/-- One more child leaves phrases of phrases. -/
theorem isPhrase_of_mem_partsWith {done : List String} {child : Node}
    (hdone : ∀ part ∈ done, Text.IsPhrase part)
    (hchild : unit.canonicalText child = "" ∨ Text.IsPhrase (unit.canonicalText child)) :
    ∀ part ∈ unit.partsWith done child, Text.IsPhrase part := by
  unfold partsWith
  by_cases hsemicolon : child.type = ";"
  · rwa [if_pos hsemicolon]
  rw [if_neg hsemicolon]
  by_cases hcomma : child.type = "," ∧ done ≠ []
  · obtain ⟨latest, earlier, rfl⟩ := List.exists_cons_of_ne_nil hcomma.2
    have hlatest := hdone latest List.mem_cons_self
    have hearlier := fun part hpart => hdone part (List.mem_cons_of_mem latest hpart)
    have hglued : Text.IsPhrase (latest ++ ",") :=
      hlatest.append (Text.IsWord.isPhrase (by decide))
    rw [if_pos hcomma, List.modifyHead_cons]
    exact List.forall_mem_cons.mpr ⟨hglued, hearlier⟩
  rw [if_neg hcomma]
  by_cases hempty : unit.canonicalText child = ""
  · rwa [if_pos hempty]
  · rw [if_neg hempty]
    exact List.forall_mem_cons.mpr ⟨hchild.resolve_left hempty, hdone⟩

theorem isPhrase_of_mem_canonicalParts {done : List String} {nodes : List Node}
    (hdone : ∀ part ∈ done, Text.IsPhrase part)
    (h : ∀ child ∈ nodes,
      unit.canonicalText child = "" ∨ Text.IsPhrase (unit.canonicalText child)) :
    ∀ part ∈ unit.canonicalParts done nodes, Text.IsPhrase part := by
  induction nodes generalizing done with
  | nil => simpa [canonicalParts] using hdone
  | cons child rest ih =>
      rw [canonicalParts_cons]
      exact ih (isPhrase_of_mem_partsWith hdone (h child List.mem_cons_self))
        fun other hother => h other (List.mem_cons_of_mem child hother)

theorem isPhrase_or_empty_canonicalFirstNamed {nodes : List Node}
    (h : ∀ child ∈ nodes,
      unit.canonicalText child = "" ∨ Text.IsPhrase (unit.canonicalText child)) :
    unit.canonicalFirstNamed nodes = "" ∨ Text.IsPhrase (unit.canonicalFirstNamed nodes) := by
  induction nodes with
  | nil => exact Or.inl rfl
  | cons child rest ih =>
      unfold canonicalFirstNamed
      split
      · exact h child List.mem_cons_self
      · exact ih fun other hother => h other (List.mem_cons_of_mem child hother)

/-- A canonical text whose tokens have no blanks is empty or a phrase. -/
theorem isPhrase_or_empty_canonicalText {node : Node} (h : unit.TokensHaveNoBlanks node) :
    unit.canonicalText node = "" ∨ Text.IsPhrase (unit.canonicalText node) := by
  induction node using Node.induction with
  | node node ih =>
      have hchildren : node.type ∈ parenthesizedType :: spacedTypes → ∀ child ∈ node.children,
          unit.canonicalText child = "" ∨ Text.IsPhrase (unit.canonicalText child) :=
        fun htype child hchild => ih child hchild (h.of_mem_children htype hchild)
      rw [canonicalText_eq]
      split
      · rename_i hparens
        simp only [Bool.and_eq_true, beq_iff_eq] at hparens
        have hinner := isPhrase_or_empty_canonicalFirstNamed (hchildren (by simp [hparens.1]))
        exact Or.inr (isPhrase_parenthesized hinner)
      split
      · rename_i hspaced
        have htype := List.mem_cons_of_mem parenthesizedType (List.contains_iff_mem.mp hspaced)
        have hparts : ∀ part ∈ unit.canonicalParts [] node.children, Text.IsPhrase part :=
          isPhrase_of_mem_canonicalParts (by simp) (hchildren htype)
        by_cases hnone : unit.canonicalParts [] node.children = []
        · rw [hnone]
          exact Or.inl rfl
        · exact Or.inr (Text.isPhrase_join hnone hparts)
      · exact isPhrase_or_empty_joinTokensFrom h

end Invariant

/-- The word at an index other than the first, or the report that there is none. -/
theorem tokenAt_eq {text : String} (h : text = "" ∨ Text.IsPhrase text) (part : String)
    {index : Nat} (hindex : 1 ≤ index) :
    tokenAt part text index =
      match (Text.words text)[index]? with
      | some word => .ok word
      | none => .error (.tooFewTokens part text (index + 1)) := by
  rw [← Text.getElem?_split h hindex]
  rfl

theorem tokenAt_eq_ok_iff {text : String} (h : text = "" ∨ Text.IsPhrase text) (part : String)
    {index : Nat} (hindex : 1 ≤ index) {word : String} :
    tokenAt part text index = .ok word ↔ (Text.words text)[index]? = some word := by
  rw [tokenAt_eq h part hindex]
  cases (Text.words text)[index]? <;> simp

theorem tokenAt_eq_error_iff {text : String} (h : text = "" ∨ Text.IsPhrase text)
    (part : String) {index : Nat} (hindex : 1 ≤ index) :
    tokenAt part text index = .error (.tooFewTokens part text (index + 1)) ↔
      (Text.words text).length < index + 1 := by
  rw [tokenAt_eq h part hindex, Nat.lt_succ_iff, ← List.getElem?_eq_none_iff]
  cases (Text.words text)[index]? <;> simp

section Loop

variable {loop initializer comparison : Node}
  (hinit : loop.childByField "init" = some initializer) (hinitThere : initializer.missing = false)
  (hcond : loop.childByField "condition" = some comparison)
  (hcondThere : comparison.missing = false)
  (hinitTokens : unit.TokensHaveNoBlanks initializer)
  (hcondTokens : unit.TokensHaveNoBlanks comparison)

include hinit hinitThere hcond hcondThere

/-- A loop whose parts are there is made of the words at two places. -/
theorem forLoop_eq :
    unit.forLoop loop = (do
      let bound ← tokenAt "comparison" (unit.canonicalText comparison) 2
      let counter ← tokenAt "initializer" (unit.canonicalText initializer) 1
      return .forLoop (unit.canonicalText initializer) bound counter) := by
  have hinitializer : Node.requiredChild (loop.childByField "init") "for initializer" =
      .ok initializer := by
    simp [Node.requiredChild, hinit, hinitThere]
  have hcomparison : Node.requiredChild (loop.childByField "condition") "for condition" =
      .ok comparison := by
    simp [Node.requiredChild, hcond, hcondThere]
  rw [forLoop, hinitializer, hcomparison]
  rfl

include hinitTokens hcondTokens

theorem forLoop_eq_ok_iff {construct : Construct} :
    unit.forLoop loop = .ok construct ↔
      ∃ bound counter, (Text.words (unit.canonicalText comparison))[2]? = some bound ∧
        (Text.words (unit.canonicalText initializer))[1]? = some counter ∧
        construct = .forLoop (unit.canonicalText initializer) bound counter := by
  have hcompared := isPhrase_or_empty_canonicalText hcondTokens
  have hinitial := isPhrase_or_empty_canonicalText hinitTokens
  simp only [forLoop_eq hinit hinitThere hcond hcondThere, bind_eq_ok_iff, pure_eq_ok_iff,
    tokenAt_eq_ok_iff hcompared _ (show 1 ≤ 2 by decide),
    tokenAt_eq_ok_iff hinitial _ (Nat.le_refl 1)]
  constructor
  · rintro ⟨bound, hbound, counter, hcounter, rfl⟩
    exact ⟨bound, counter, hbound, hcounter, rfl⟩
  · rintro ⟨bound, counter, hbound, hcounter, rfl⟩
    exact ⟨bound, hbound, counter, hcounter, rfl⟩

/-- A loop is not shown if one of the two words is not there. -/
theorem exists_forLoop_eq_error_iff :
    (∃ cause, unit.forLoop loop = .error cause) ↔
      (Text.words (unit.canonicalText comparison)).length < 3 ∨
        (Text.words (unit.canonicalText initializer)).length < 2 := by
  have hok : (∃ construct, unit.forLoop loop = .ok construct) ↔
      2 < (Text.words (unit.canonicalText comparison)).length ∧
        1 < (Text.words (unit.canonicalText initializer)).length := by
    simp only [forLoop_eq_ok_iff hinit hinitThere hcond hcondThere hinitTokens hcondTokens]
    constructor
    · rintro ⟨_, bound, counter, hbound, hcounter, rfl⟩
      exact ⟨(List.getElem?_eq_some_iff.mp hbound).1, (List.getElem?_eq_some_iff.mp hcounter).1⟩
    · rintro ⟨hbound, hcounter⟩
      exact ⟨_, _, _, List.getElem?_eq_getElem hbound, List.getElem?_eq_getElem hcounter, rfl⟩
  cases hresult : unit.forLoop loop with
  | error cause =>
      rw [hresult] at hok
      simp only [reduceCtorEq, exists_false, false_iff] at hok
      simp only [Except.error.injEq, exists_eq', true_iff]
      omega
  | ok construct =>
      rw [hresult] at hok
      simp only [Except.ok.injEq, exists_eq', true_iff] at hok
      simp only [reduceCtorEq, exists_false, false_iff]
      omega

end Loop

end SourceUnit
end Syntax

/-- A candidate is passed over if it does not make a construct. -/
theorem Candidate.exists_skipped_iff {unit : SourceUnit} {candidate : Candidate} :
    (∃ diagnostic, candidate.locate unit = .ok (.skipped diagnostic)) ↔
      ∃ cause, candidate.construct unit = .error cause := by
  constructor
  · rintro ⟨diagnostic, h⟩
    obtain ⟨cause, hcause, _⟩ := Candidate.unrendered_of_locate_eq_ok h
    exact ⟨cause, hcause⟩
  · rintro ⟨cause, hcause⟩
    rw [Candidate.locate, hcause]
    exact ⟨_, rfl⟩

/-- **Words of loops.**  Where the tokens of a tree have no blanks, the tokens of its nodes
outside comments and literals have none.  The canonical text of such a node is its words with
one space between neighbours, and from the second word on, the token at an index is the word
that blanks tell apart.  A loop that has an initialiser and a comparison is made of the third
word of the one and the second word of the other, which are not empty, and is passed over with
a diagnostic exactly if one of them is not there. -/
theorem loop_words (unit : SourceUnit) :
    (∀ tree node, unit.TokensHaveNoBlanks tree → tree.OpensTo node →
      unit.TokensHaveNoBlanks node) ∧
    (∀ node, unit.TokensHaveNoBlanks node →
      let text := unit.canonicalText node
      let words := Text.words text
      text = Text.join " " words ∧ (∀ word ∈ words, Text.IsWord word) ∧
      ∀ part index, 1 ≤ index →
        (∀ word, SourceUnit.tokenAt part text index = .ok word ↔ words[index]? = some word) ∧
        (SourceUnit.tokenAt part text index = .error (.tooFewTokens part text (index + 1)) ↔
          words.length < index + 1)) ∧
    ∀ loop initializer comparison : Node,
      loop.childByField "init" = some initializer → initializer.missing = false →
      loop.childByField "condition" = some comparison → comparison.missing = false →
      unit.TokensHaveNoBlanks initializer → unit.TokensHaveNoBlanks comparison →
      let initial := Text.words (unit.canonicalText initializer)
      let compared := Text.words (unit.canonicalText comparison)
      (∀ construct, unit.forLoop loop = .ok construct ↔
        ∃ bound counter, compared[2]? = some bound ∧ initial[1]? = some counter ∧
          bound ≠ "" ∧ counter ≠ "" ∧
          construct = .forLoop (unit.canonicalText initializer) bound counter) ∧
      ((∃ diagnostic, (Candidate.forLoop loop).locate unit = .ok (.skipped diagnostic)) ↔
        compared.length < 3 ∨ initial.length < 2) := by
  refine ⟨fun tree node htree hnode => htree.of_opensTo hnode, ?_, ?_⟩
  · intro node hnode text words
    have hphrase := SourceUnit.isPhrase_or_empty_canonicalText hnode
    refine ⟨(Text.join_words hphrase).symm, fun word => Text.isWord_of_mem_words hphrase, ?_⟩
    intro part index hindex
    exact ⟨fun word => SourceUnit.tokenAt_eq_ok_iff hphrase part hindex,
      SourceUnit.tokenAt_eq_error_iff hphrase part hindex⟩
  · intro loop initializer comparison hinit hinitThere hcond hcondThere hinitTokens hcondTokens
      initial compared
    have hword : ∀ {node : Node} {index : Nat} {word : String}, unit.TokensHaveNoBlanks node →
        (Text.words (unit.canonicalText node))[index]? = some word → word ≠ "" := by
      intro node index word hnode hword
      exact (Text.isWord_of_mem_words (SourceUnit.isPhrase_or_empty_canonicalText hnode)
        (List.mem_of_getElem? hword)).1
    refine ⟨fun construct => ?_, ?_⟩
    · rw [SourceUnit.forLoop_eq_ok_iff hinit hinitThere hcond hcondThere hinitTokens hcondTokens]
      constructor
      · rintro ⟨bound, counter, hbound, hcounter, rfl⟩
        exact ⟨bound, counter, hbound, hcounter, hword hcondTokens hbound,
          hword hinitTokens hcounter, rfl⟩
      · rintro ⟨bound, counter, hbound, hcounter, _, _, rfl⟩
        exact ⟨bound, counter, hbound, hcounter, rfl⟩
    · rw [Candidate.exists_skipped_iff]
      exact SourceUnit.exists_forLoop_eq_error_iff hinit hinitThere hcond hcondThere hinitTokens
        hcondTokens

/-- The declarations `int i = (n  +1), j;` of a loop. -/
def loopDeclarations : Node :=
  ⟨"local_variable_declaration", 5, 24, true, false, some "init",
    [⟨"integral_type", 5, 8, true, false, some "type", []⟩,
      ⟨"variable_declarator", 9, 20, true, false, some "declarator",
        [⟨"identifier", 9, 10, true, false, some "name", []⟩,
          ⟨"=", 11, 12, false, false, none, []⟩,
          ⟨"parenthesized_expression", 13, 20, true, false, some "value",
            [⟨"(", 13, 14, false, false, none, []⟩,
              ⟨"binary_expression", 14, 19, true, false, none,
                [⟨"identifier", 14, 15, true, false, some "left", []⟩,
                  ⟨"+", 17, 18, false, false, some "operator", []⟩,
                  ⟨"decimal_integer_literal", 18, 19, true, false, some "right", []⟩]⟩,
              ⟨")", 19, 20, false, false, none, []⟩]⟩]⟩,
      ⟨",", 20, 21, false, false, none, []⟩,
      ⟨"variable_declarator", 22, 23, true, false, some "declarator",
        [⟨"identifier", 22, 23, true, false, some "name", []⟩]⟩,
      ⟨";", 23, 24, false, false, none, []⟩]⟩

/-- The comparison `i < f( /* x */ a )` of a loop. -/
def loopComparison : Node :=
  ⟨"binary_expression", 25, 43, true, false, some "condition",
    [⟨"identifier", 25, 26, true, false, some "left", []⟩,
      ⟨"<", 27, 28, false, false, some "operator", []⟩,
      ⟨"method_invocation", 29, 43, true, false, some "right",
        [⟨"identifier", 29, 30, true, false, some "name", []⟩,
          ⟨"argument_list", 30, 43, true, false, some "arguments",
            [⟨"(", 30, 31, false, false, none, []⟩,
              ⟨"block_comment", 32, 39, true, false, none, []⟩,
              ⟨"identifier", 40, 41, true, false, none, []⟩,
              ⟨")", 42, 43, false, false, none, []⟩]⟩]⟩]⟩

/-- The text of a loop over a literal with a blank, with its tree. -/
def declaringLoop : SourceUnit :=
  { path := "A.java"
    text := "for (int i = (n  +1), j; i < f( /* x */ a ); ) g(\"a b\");"
    root :=
      ⟨"for_statement", 0, 56, true, false, none,
        [⟨"for", 0, 3, false, false, none, []⟩, ⟨"(", 4, 5, false, false, none, []⟩,
          loopDeclarations, loopComparison, ⟨";", 43, 44, false, false, none, []⟩,
          ⟨")", 45, 46, false, false, none, []⟩,
          ⟨"expression_statement", 47, 56, true, false, some "body",
            [⟨"method_invocation", 47, 55, true, false, none,
              [⟨"identifier", 47, 48, true, false, some "name", []⟩,
                ⟨"argument_list", 48, 55, true, false, some "arguments",
                  [⟨"(", 48, 49, false, false, none, []⟩,
                    ⟨"string_literal", 49, 54, true, false, none, []⟩,
                    ⟨")", 54, 55, false, false, none, []⟩]⟩]⟩,
              ⟨";", 55, 56, false, false, none, []⟩]⟩]⟩ }

/-- The literal is not among the tokens that the words of the loop come from. -/
theorem forLoop_declaringLoop :
    ¬ declaringLoop.TokensHaveNoBlanks declaringLoop.root ∧
      declaringLoop.TokensHaveNoBlanks loopDeclarations ∧
      declaringLoop.TokensHaveNoBlanks loopComparison ∧
      declaringLoop.forLoop declaringLoop.root =
        .ok (.forLoop "int i = (n + 1), j" "f(" "i") := by
  have hinit : declaringLoop.root.childByField "init" = some loopDeclarations := rfl
  have hcond : declaringLoop.root.childByField "condition" = some loopComparison := rfl
  have hinitTokens : declaringLoop.TokensHaveNoBlanks loopDeclarations := by decide +kernel
  have hcondTokens : declaringLoop.TokensHaveNoBlanks loopComparison := by decide +kernel
  have hbound : (Text.words (declaringLoop.canonicalText loopComparison))[2]? = some "f(" := by
    decide +kernel
  have hcounter : (Text.words (declaringLoop.canonicalText loopDeclarations))[1]? =
      some "i" := by
    decide +kernel
  have htext : "int i = (n + 1), j" = declaringLoop.canonicalText loopDeclarations := by
    decide +kernel
  obtain ⟨_, _, hloops⟩ := loop_words declaringLoop
  obtain ⟨hmade, _⟩ := hloops declaringLoop.root loopDeclarations loopComparison hinit rfl
    hcond rfl hinitTokens hcondTokens
  refine ⟨by decide +kernel, hinitTokens, hcondTokens, (hmade _).mpr ?_⟩
  exact ⟨"f(", "i", hbound, hcounter, by decide, by decide, by rw [htext]⟩

end JavaSketch
