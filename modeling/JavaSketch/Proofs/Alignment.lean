import JavaSketch.Proofs.LineFeeds
import JavaSketch.Proofs.Overwriting

/-!
# Lines that stay lines

Converted lines are meant to be written one below the other, so that line `n` of
the output stands for line `n` of the source.  This holds as long as no text that
is last written on a line has a line feed; the source lines, their indentations
and the cleanup never bring one in.

A header or footer has a line feed only if a token or a name it shows has one.
Canonical text copies tokens as they stand, and a string literal may go over
several lines.

**Definitions.**
* `breaksLine`: whether a text has a line feed.
* `shownTokens`: the tokens that make up a canonical text.
* `isAligned`: whether every line of a buffer is one line of the output.

**Results.**
* `breaksLine_canonicalText`: a canonical text breaks where a shown token does.
* `isAligned_ofLocated_iff`: lines stay lines unless a text written last breaks one.
* `exists_shownNode_of_breaksLine`: what breaks a header or a footer.
* `convert_isAligned_iff`: both, for conversions into the lines of the unit.
-/

namespace JavaSketch

open Syntax (Node SourceUnit)

namespace Text

/-- Whether a text has a line feed. -/
def breaksLine (text : String) : Bool :=
  text.toList.contains '\n'

@[simp] theorem breaksLine_append (first second : String) :
    breaksLine (first ++ second) = (breaksLine first || breaksLine second) := by
  simp [breaksLine]

theorem breaksLine_join {sep : String} (hsep : breaksLine sep = false)
    (texts : List String) : breaksLine (join sep texts) = texts.any breaksLine := by
  induction texts with
  | nil => rfl
  | cons text rest ih =>
      cases rest with
      | nil => simp [join]
      | cons next rest => simp [join, hsep, ih]

theorem breaksLine_of_mem_split {sep : Char} {text piece : String}
    (hpiece : piece ∈ split sep text) (h : breaksLine piece) : breaksLine text := by
  obtain ⟨chars, hchars, rfl⟩ := List.mem_map.mp hpiece
  have hmem : '\n' ∈ chars := by simpa [breaksLine] using h
  simpa [breaksLine] using (mem_of_mem_pieces hchars hmem).1

theorem breaksLine_of_mem_splitLines {text line : String} (h : line ∈ splitLines text) :
    breaksLine line = false := by
  simpa [breaksLine] using lineFeed_not_mem_of_mem_splitLines h

theorem breaksLine_indentation {line : String} (h : breaksLine line = false) :
    breaksLine (indentation line) = false := by
  have hline : '\n' ∉ line.toList := by simpa [breaksLine] using h
  have hblank : '\n' ∉ leadingBlankChars line.toList := fun hmem =>
    hline ((List.takeWhile_sublist _).subset hmem)
  simpa [breaksLine, indentation] using hblank

/-- A line breaks once it is written on if and only if the text on it does. -/
theorem breaksLine_rewritten {line : String} (h : breaksLine line = false)
    (text : Option String) : breaksLine (rewritten line text) = text.any breaksLine := by
  cases text with
  | none => exact h
  | some text => simp [rewritten, breaksLine_indentation h]

end Text

/-- The cleanup neither adds nor removes line feeds. -/
theorem breaksLine_cleanLine (line : String) :
    Text.breaksLine (cleanLine line) = Text.breaksLine line := by
  have hmap : ∀ cs : List Char,
      '\n' ∈ cs.map (fun c => if isBrace c then ' ' else c) ↔ '\n' ∈ cs := by
    intro cs
    rw [List.mem_map]
    constructor
    · rintro ⟨c, hc, hclean⟩
      split at hclean
      · exact absurd hclean (by decide)
      · exact hclean ▸ hc
    · exact fun hmem => ⟨'\n', hmem, by decide⟩
  have hchars : '\n' ∈ cleanChars line.toList ↔ '\n' ∈ line.toList := by
    simp only [cleanChars]
    rw [hmap]
    split
    · rename_i hlast
      obtain ⟨cs, hcs⟩ := List.getLast?_eq_some_iff.mp hlast
      simp [hcs]
    · exact Iff.rfl
  simp [Text.breaksLine, cleanLine, hchars]

namespace Syntax.SourceUnit

/-- Whether the text of a node has a line feed. -/
def breaksLineAt (unit : SourceUnit) (node : Node) : Bool :=
  Text.breaksLine (unit.nodeText node)

theorem breaksLine_joinTokensFrom (unit : SourceUnit) (last : Option Nat)
    (tokens : List Node) :
    Text.breaksLine (unit.joinTokensFrom last tokens) = tokens.any unit.breaksLineAt := by
  have hgap : ∀ gapped : Bool, Text.breaksLine (if gapped then " " else "") = false := by
    decide
  induction tokens generalizing last with
  | nil => rfl
  | cons token rest ih =>
      by_cases hempty : unit.nodeText token = ""
      · have htoken : unit.breaksLineAt token = false := by
          rw [breaksLineAt, hempty]
          rfl
        rw [joinTokensFrom_of_empty hempty, ih, List.any_cons, htoken, Bool.false_or]
      · simp [joinTokensFrom, hempty, hgap, ih, breaksLineAt]

mutual

/-- The tokens that make up the canonical text of a node. -/
def shownTokens (unit : SourceUnit) : Node → List Node
  | ⟨type, start, stop, named, missing, field, children⟩ =>
      if type == parenthesizedType && children.any (·.named) then
        shownFirstNamed unit children
      else if spacedTypes.contains type then shownParts unit true children
      else Node.leafTokens ⟨type, start, stop, named, missing, field, children⟩

/-- The tokens shown of the first named node of some nodes. -/
def shownFirstNamed (unit : SourceUnit) : List Node → List Node
  | [] => []
  | child :: rest =>
      if child.named then shownTokens unit child else shownFirstNamed unit rest

/-- The tokens shown of some spaced parts, which come first of all or not. -/
def shownParts (unit : SourceUnit) (first : Bool) : List Node → List Node
  | [] => []
  | child :: rest =>
      if child.type = ";" ∨ child.type = "," ∧ first = false then
        shownParts unit first rest
      else
        shownTokens unit child ++
          shownParts unit (first && unit.canonicalText child == "") rest

end

theorem shownTokens_eq (unit : SourceUnit) (node : Node) :
    unit.shownTokens node =
      if node.type == parenthesizedType && node.children.any (·.named) then
        unit.shownFirstNamed node.children
      else if spacedTypes.contains node.type then unit.shownParts true node.children
      else node.leafTokens := by
  cases node
  rfl

mutual

/-- A canonical text breaks if and only if a token it shows does. -/
theorem breaksLine_canonicalText (unit : SourceUnit) : (node : Node) →
    Text.breaksLine (unit.canonicalText node) =
      (unit.shownTokens node).any unit.breaksLineAt
  | ⟨type, start, stop, named, missing, field, children⟩ => by
      rw [canonicalText_eq, shownTokens_eq]
      split
      · have hinner := breaksLine_canonicalFirstNamed unit children
        have hparens : Text.breaksLine "(" = false ∧ Text.breaksLine ")" = false := by
          decide
        simp [hinner, hparens]
      · split
        · have hparts := any_breaksLine_canonicalParts unit [] children
          rw [Text.breaksLine_join (by decide)]
          exact hparts
        · exact unit.breaksLine_joinTokensFrom none _

theorem breaksLine_canonicalFirstNamed (unit : SourceUnit) : (nodes : List Node) →
    Text.breaksLine (unit.canonicalFirstNamed nodes) =
      (unit.shownFirstNamed nodes).any unit.breaksLineAt
  | [] => rfl
  | child :: rest => by
      unfold canonicalFirstNamed shownFirstNamed
      split
      · exact breaksLine_canonicalText unit child
      · exact breaksLine_canonicalFirstNamed unit rest

theorem any_breaksLine_canonicalParts (unit : SourceUnit) (done : List String) :
    (nodes : List Node) →
      (unit.canonicalParts done nodes).any Text.breaksLine =
        (done.any Text.breaksLine ||
          (unit.shownParts done.isEmpty nodes).any unit.breaksLineAt)
  | [] => by simp [canonicalParts, shownParts]
  | child :: rest => by
      have hchild := breaksLine_canonicalText unit child
      have hrest := fun done => any_breaksLine_canonicalParts unit done rest
      unfold canonicalParts shownParts
      by_cases hsemicolon : child.type = ";"
      · simp only [hsemicolon, if_true, true_or, hrest]
      by_cases hcomma : child.type = "," ∧ done ≠ []
      · obtain ⟨text, texts, rfl⟩ := List.exists_cons_of_ne_nil hcomma.2
        have hbreak : Text.breaksLine "," = false := by decide
        simp [hcomma.1, hrest, hbreak]
      have hskip : ¬(child.type = ";" ∨ child.type = "," ∧ done.isEmpty = false) := by
        simpa [hsemicolon] using hcomma
      rw [if_neg hsemicolon, if_neg hcomma, if_neg hskip, List.any_append, ← hchild]
      by_cases hempty : unit.canonicalText child = ""
      · have hbreak : Text.breaksLine "" = false := by decide
        simp [hempty, hrest, hbreak]
      · have hfirst : (done.isEmpty && unit.canonicalText child == "") = false := by
          simp [hempty]
        simp [hempty, hrest, hfirst, Bool.or_assoc, Bool.or_left_comm]

end

theorem breaksLine_declaredName (unit : SourceUnit) (declaration : Node) :
    Text.breaksLine (unit.declaredName declaration) =
      (declaration.childByField "name").any unit.breaksLineAt := by
  unfold declaredName
  cases declaration.childByField "name" <;> rfl

/-- The nodes that name the parameters of a method. -/
def parameterNameNodes (method : Node) : List Node :=
  method.parameterDeclarators.filterMap (·.childByField "name")

theorem any_breaksLine_parameterNames (unit : SourceUnit) (method : Node) :
    (unit.parameterNames method).any Text.breaksLine =
      (parameterNameNodes method).any unit.breaksLineAt := by
  rw [parameterNames_eq, parameterNameNodes, List.any_map, List.any_filterMap]
  exact congrArg _ (funext unit.breaksLine_declaredName)

end Syntax.SourceUnit

namespace MethodSignature

theorem breaksLine_header {method : MethodSignature}
    (h : method.access = "" ∨ method.access ∈ accessKeywords) :
    Text.breaksLine method.header =
      (Text.breaksLine method.name || Text.breaksLine method.parameters) := by
  have hword : Text.breaksLine method.routineWord = false := by
    unfold routineWord
    split <;> decide
  have hsigns : Text.breaksLine " " = false ∧ Text.breaksLine "(" = false ∧
      Text.breaksLine ")" = false := by decide
  unfold header
  split
  · simp [hword, hsigns]
  · rename_i hsome
    have hkeywords : ∀ keyword ∈ accessKeywords, Text.breaksLine keyword = false := by
      decide
    simp [hword, hsigns, hkeywords method.access (h.resolve_left hsome)]

theorem breaksLine_footer {method : MethodSignature} {text : String}
    (h : method.footer = some text) : Text.breaksLine text = false := by
  unfold footer routineWord at h
  split at h
  · obtain rfl := Option.some.inj h
    split <;> decide
  · simp at h

end MethodSignature

namespace Construct

/-- A header or footer breaks only where a fragment of the construct does. -/
theorem any_breaksLine_fragments {construct : Construct}
    (haccess : ∀ method ∈ construct.signature?,
      method.access = "" ∨ method.access ∈ accessKeywords) {text : String}
    (htext : text = construct.header ∨ construct.footer = some text)
    (hbreak : Text.breaksLine text) :
    construct.fragments.any fun fragment => Text.breaksLine fragment.2 := by
  have hfixed : Text.breaksLine "for " = false ∧ Text.breaksLine " to " = false ∧
      Text.breaksLine "next " = false ∧ Text.breaksLine " in " = false ∧
      Text.breaksLine "if " = false ∧ Text.breaksLine " then" = false ∧
      Text.breaksLine "endif" = false ∧ Text.breaksLine "switch " = false ∧
      Text.breaksLine "endswitch" = false := by decide
  rcases htext with rfl | hfooter
  · cases construct with
    | method signature =>
        rw [header, MethodSignature.breaksLine_header (haccess signature rfl)] at hbreak
        simpa [fragments] using hbreak
    | forLoop initializer bound counter =>
        have hparts : Text.breaksLine initializer ∨ Text.breaksLine bound := by
          simpa [header, hfixed] using hbreak
        simpa [fragments, or_assoc] using Or.inl hparts
    | forEachLoop element iterable | conditional condition | switchBlock selector =>
        simpa [header, fragments, hfixed] using hbreak
  · cases construct with
    | method signature =>
        rw [MethodSignature.breaksLine_footer hfooter] at hbreak
        simp at hbreak
    | forLoop initializer bound counter =>
        obtain rfl := Option.some.inj hfooter
        have hcounter : Text.breaksLine counter := by simpa [hfixed] using hbreak
        simp [fragments, hcounter]
    | forEachLoop element iterable =>
        obtain rfl := Option.some.inj hfooter
        have helement : Text.breaksLine element := by simpa [hfixed] using hbreak
        simp [fragments, helement]
    | conditional condition | switchBlock selector =>
        obtain rfl := Option.some.inj hfooter
        simp [hfixed] at hbreak

end Construct

namespace Candidate

/-- The nodes whose texts the pseudocode of a candidate shows. -/
def shownNodes (unit : SourceUnit) : Candidate → List Node
  | method _ node => (node.childByField "name").toList ++ SourceUnit.parameterNameNodes node
  | forLoop node =>
      (node.childByField "init").toList.flatMap unit.shownTokens ++
        (node.childByField "condition").toList.flatMap unit.shownTokens
  | forEachLoop node =>
      (node.childByField "name").toList ++
        (node.childByField "value").toList.flatMap unit.shownTokens
  | conditional node => node.conditionContent.toList.flatMap unit.shownTokens
  | switchBlock node => node.conditionContent.toList.flatMap unit.shownTokens

/-- A fragment of a construct breaks only where a node that is shown does. -/
theorem any_breaksLineAt_shownNodes {unit : SourceUnit} {candidate : Candidate}
    {construct : Construct} (h : candidate.construct unit = .ok construct)
    (hbreak : construct.fragments.any fun fragment => Text.breaksLine fragment.2) :
    (candidate.shownNodes unit).any unit.breaksLineAt := by
  have hcontent : ∀ content : Node, Text.breaksLine (unit.canonicalText content) =
      ((some content).toList.flatMap unit.shownTokens).any unit.breaksLineAt := by
    intro content
    rw [unit.breaksLine_canonicalText, Option.toList_some, List.flatMap_singleton]
  cases candidate with
  | method declaration node =>
      obtain rfl := Except.ok.inj h
      have hname : Text.breaksLine (unit.declaredName node) =
          (node.childByField "name").toList.any unit.breaksLineAt := by
        rw [unit.breaksLine_declaredName]
        cases node.childByField "name" <;> simp
      have hparameters : Text.breaksLine (Text.join "," (unit.parameterNames node)) =
          (SourceUnit.parameterNameNodes node).any unit.breaksLineAt := by
        rw [Text.breaksLine_join (by decide), unit.any_breaksLine_parameterNames]
      have hparts : Text.breaksLine (unit.declaredName node) ||
          Text.breaksLine (Text.join "," (unit.parameterNames node)) := by
        simpa [Construct.fragments, SourceUnit.methodSignature] using hbreak
      rw [hname, hparameters] at hparts
      rwa [shownNodes, List.any_append]
  | forLoop node =>
      obtain ⟨initializer, hinitializer, comparison, hcomparison, bound, hbound, counter,
        hcounter, rfl⟩ := SourceUnit.exists_of_forLoop_eq_ok h
      have hparts : Text.breaksLine (unit.canonicalText initializer) ||
          Text.breaksLine (unit.canonicalText comparison) := by
        have hthree : Text.breaksLine (unit.canonicalText initializer) ∨
            Text.breaksLine bound ∨ Text.breaksLine counter := by
          simpa [Construct.fragments] using hbreak
        rw [Bool.or_eq_true]
        rcases hthree with hinitial | hlimit | hcount
        · exact Or.inl hinitial
        · exact Or.inr (Text.breaksLine_of_mem_split hbound hlimit)
        · exact Or.inl (Text.breaksLine_of_mem_split hcounter hcount)
      rw [hcontent, hcontent, ← Option.mem_def.mp hinitializer,
        ← Option.mem_def.mp hcomparison] at hparts
      rwa [shownNodes, List.any_append]
  | forEachLoop node =>
      obtain ⟨element, helement, iterable, hiterable, rfl⟩ :=
        SourceUnit.exists_of_forEachLoop_eq_ok h
      have hparts : [element].any unit.breaksLineAt ||
          Text.breaksLine (unit.canonicalText iterable) := by
        simpa [Construct.fragments, SourceUnit.breaksLineAt] using hbreak
      rw [hcontent, ← Option.mem_def.mp hiterable, ← Option.toList_some,
        ← Option.mem_def.mp helement] at hparts
      rwa [shownNodes, List.any_append]
  | conditional node =>
      obtain ⟨condition, hcondition, rfl⟩ := SourceUnit.exists_of_conditional_eq_ok h
      have hpart : Text.breaksLine (unit.canonicalText condition) := by
        simpa [Construct.fragments] using hbreak
      rw [hcontent, ← Option.mem_def.mp hcondition] at hpart
      exact hpart
  | switchBlock node =>
      obtain ⟨selector, hselector, rfl⟩ := SourceUnit.exists_of_switchBlock_eq_ok h
      have hpart : Text.breaksLine (unit.canonicalText selector) := by
        simpa [Construct.fragments] using hbreak
      rw [hcontent, ← Option.mem_def.mp hselector] at hpart
      exact hpart

end Candidate

namespace LineBuffer

/-- Whether every line of a buffer is one line of the output. -/
def isAligned (buffer : LineBuffer) : Bool :=
  buffer.lines.all (!Text.breaksLine ·)

theorem isAligned_iff {buffer : LineBuffer} :
    buffer.isAligned ↔
      ∀ line text, buffer.line? line = some text → Text.breaksLine text = false := by
  unfold isAligned
  rw [List.all_eq_true]
  constructor
  · intro h line text hline
    unfold line? at hline
    split at hline
    · simpa using h text (List.mem_of_getElem? hline)
    · simp at hline
  · intro h text htext
    obtain ⟨index, hindex⟩ := List.getElem?_of_mem htext
    have hline : buffer.line? (index + 1) = some text := by
      have hpos : (1 : Int) ≤ index + 1 := by omega
      simp [line?, hpos, hindex]
    simp [h _ text hline]

/-- Aligned lines are those that are there again once they are joined and split. -/
theorem isAligned_iff_split_join {buffer : LineBuffer} (h : buffer.lines ≠ []) :
    buffer.isAligned ↔
      Text.split '\n' (Text.join "\n" buffer.lines) = buffer.lines := by
  rw [Text.split_join_eq_iff h]
  simp [isAligned, Text.breaksLine]

end LineBuffer

namespace Syntax.SourceUnit

theorem breaksLine_of_line?_buffer {unit : SourceUnit} {line : Int} {text : String}
    (h : unit.buffer.line? line = some text) : Text.breaksLine text = false := by
  unfold LineBuffer.line? at h
  split at h
  · exact Text.breaksLine_of_mem_splitLines (List.mem_of_getElem? h)
  · simp at h

/-- The lines of a unit stay lines if and only if no text that is written last on
one of them breaks it. -/
theorem isAligned_ofLocated_iff {unit : SourceUnit} {located : Located}
    (h : unit.locate = .ok located) :
    (Conversion.ofLocated located unit.buffer).buffer.isAligned ↔
      ∀ line : Int, 1 ≤ line ∧ line ≤ unit.buffer.size →
        ∀ text ∈ Span.lastText unit.buffer.size located.spans line,
          Text.breaksLine text = false := by
  rw [LineBuffer.isAligned_iff]
  simp only [line?_ofLocated h]
  constructor
  · intro haligned line hline text htext
    obtain ⟨old, hold⟩ := LineBuffer.exists_line?_eq_some hline
    have hbreak := haligned line _ (congrArg _ hold)
    rw [breaksLine_cleanLine, Text.breaksLine_rewritten (breaksLine_of_line?_buffer hold),
      Option.mem_def.mp htext] at hbreak
    exact hbreak
  · intro hlast line text hline
    obtain ⟨old, hold, rfl⟩ := Option.map_eq_some_iff.mp hline
    have hcontains := LineBuffer.contains_iff.mp
      (LineBuffer.line?_isSome.mp (Option.isSome_of_eq_some hold))
    rw [breaksLine_cleanLine, Text.breaksLine_rewritten (breaksLine_of_line?_buffer hold)]
    cases htext : Span.lastText unit.buffer.size located.spans line with
    | none => rfl
    | some text => exact hlast line hcontains text htext

/-- A text that breaks a line shows a node that does. -/
theorem exists_shownNode_of_breaksLine {unit : SourceUnit} {located : Located}
    (h : unit.locate = .ok located) {size : Nat} {line : Int} {text : String}
    (htext : text ∈ Span.lastText size located.spans line) (hbreak : Text.breaksLine text) :
    ∃ candidate ∈ unit.candidates, ∃ node ∈ candidate.shownNodes unit,
      unit.breaksLineAt node := by
  obtain ⟨span, hspan, hboundary⟩ :=
    Span.exists_of_mem_textsOn (List.mem_of_getLast? htext)
  obtain ⟨candidate, hcandidate, hconstruct, _⟩ := exists_candidate_of_mem_spans h hspan
  have hfragments := Construct.any_breaksLine_fragments
    (fun method hmethod => access_of_construct_eq_ok hconstruct hmethod) hboundary hbreak
  have hnodes := Candidate.any_breaksLineAt_shownNodes hconstruct hfragments
  exact ⟨candidate, hcandidate, List.any_eq_true.mp hnodes⟩

end Syntax.SourceUnit

/-- **When the output stays aligned.**  The lines of a conversion stay lines, and
are there again once they are joined and split, if and only if no text that is
written last on one of them has a line feed.  Where no token other than a string
literal has one, this is so unless the pseudocode shows a string literal, or a
node that is no token of the tree, that goes over several lines. -/
theorem convert_isAligned_iff {unit : SourceUnit} {located : Located}
    (hlocate : unit.locate = .ok located)
    (htokens : ∀ token ∈ unit.root.leafTokens, token.type ≠ "string_literal" →
      unit.breaksLineAt token = false) :
    ∃ conversion, unit.convert none = .ok conversion ∧
      (conversion.buffer.isAligned ↔
        ∀ line : Int, 1 ≤ line ∧ line ≤ unit.buffer.size →
          ∀ text ∈ Span.lastText unit.buffer.size located.spans line,
            Text.breaksLine text = false) ∧
      (conversion.buffer.lines ≠ [] → (conversion.buffer.isAligned ↔
        Text.split '\n' (Text.join "\n" conversion.buffer.lines) =
          conversion.buffer.lines)) ∧
      (conversion.buffer.isAligned = false →
        ∃ candidate ∈ unit.candidates, ∃ node ∈ candidate.shownNodes unit,
          unit.breaksLineAt node ∧
            (node.type = "string_literal" ∨ node ∉ unit.root.leafTokens)) := by
  refine ⟨_, Syntax.SourceUnit.convert_eq_ok hlocate none,
    Syntax.SourceUnit.isAligned_ofLocated_iff hlocate,
    LineBuffer.isAligned_iff_split_join, fun hbroken => ?_⟩
  by_contra hnone
  have hlast : ∀ line : Int, 1 ≤ line ∧ line ≤ unit.buffer.size →
      ∀ text ∈ Span.lastText unit.buffer.size located.spans line,
        Text.breaksLine text = false := by
    intro line _ text htext
    rw [Bool.eq_false_iff]
    intro hbreak
    obtain ⟨candidate, hcandidate, node, hnode, hshown⟩ :=
      Syntax.SourceUnit.exists_shownNode_of_breaksLine hlocate htext hbreak
    refine hnone ⟨candidate, hcandidate, node, hnode, hshown, ?_⟩
    by_cases htype : node.type = "string_literal"
    · exact Or.inl htype
    · refine Or.inr fun hleaf => ?_
      rw [htokens node hleaf htype] at hshown
      exact Bool.false_ne_true hshown
  have haligned := (Syntax.SourceUnit.isAligned_ofLocated_iff hlocate).mpr hlast
  exact Bool.false_ne_true (hbroken.symm.trans haligned)

/-- The text of a conditional on a string literal of two lines, with its tree. -/
def textBlockConditional : SourceUnit :=
  { path := "Sign.java"
    text := "  if(s==\"\"\"\na\"\"\")\x7b\x7d\n"
    root :=
      ⟨"if_statement", 2, 19, true, false, none,
        [⟨"if", 2, 4, false, false, none, []⟩,
          ⟨"parenthesized_expression", 4, 17, true, false, some "condition",
            [⟨"(", 4, 5, false, false, none, []⟩,
              ⟨"binary_expression", 5, 16, true, false, none,
                [⟨"identifier", 5, 6, true, false, some "left", []⟩,
                  ⟨"==", 6, 8, false, false, some "operator", []⟩,
                  ⟨"string_literal", 8, 16, true, false, some "right", []⟩]⟩,
              ⟨")", 16, 17, false, false, none, []⟩]⟩,
          ⟨"block", 17, 19, true, false, some "consequence", []⟩]⟩ }

theorem locate_textBlockConditional :
    textBlockConditional.locate =
      .ok ⟨[⟨.conditional "s == \"\"\"\na\"\"\"", 1, 2, by decide⟩], []⟩ := by
  decide +kernel

theorem leafTokens_textBlockConditional :
    ∀ token ∈ textBlockConditional.root.leafTokens, token.type ≠ "string_literal" →
      textBlockConditional.breaksLineAt token = false := by
  decide +kernel

/-- The string literal of two lines makes one line into two. -/
theorem convert_textBlockConditional :
    (∀ token ∈ textBlockConditional.root.leafTokens, token.type ≠ "string_literal" →
      textBlockConditional.breaksLineAt token = false) ∧
    ∃ conversion, textBlockConditional.convert none = .ok conversion ∧
      conversion.buffer.isAligned = false := by
  refine ⟨leafTokens_textBlockConditional, ?_⟩
  obtain ⟨conversion, hconvert, haligned, _, _⟩ :=
    convert_isAligned_iff locate_textBlockConditional leafTokens_textBlockConditional
  refine ⟨conversion, hconvert, Bool.eq_false_iff.mpr fun hall => ?_⟩
  have hfirst : Span.lastText textBlockConditional.buffer.size
      [⟨.conditional "s == \"\"\"\na\"\"\"", 1, 2, by decide⟩] 1 =
        some "if s == \"\"\"\na\"\"\" then" := by
    decide +kernel
  have hbreak := haligned.mp hall 1 (by decide +kernel) _ hfirst
  exact absurd hbreak (by decide)

/-- Joined and split again, the two lines of that conversion are three. -/
theorem split_join_textBlockConditional :
    (∀ token ∈ textBlockConditional.root.leafTokens, token.type ≠ "string_literal" →
      '\n' ∉ (textBlockConditional.nodeText token).toList) ∧
    ∃ conversion, textBlockConditional.convert none = .ok conversion ∧
      conversion.buffer.lines = ["  if s == \"\"\"\na\"\"\" then", "endif"] ∧
      Text.split '\n' (Text.join "\n" conversion.buffer.lines) =
        ["  if s == \"\"\"", "a\"\"\" then", "endif"] := by
  refine ⟨by decide +kernel, _, Syntax.SourceUnit.convert_eq_ok locate_textBlockConditional
    none, by decide +kernel, by decide +kernel⟩

end JavaSketch
