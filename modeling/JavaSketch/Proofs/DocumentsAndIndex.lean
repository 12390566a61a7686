import JavaSketch.Java.Reader
import JavaSketch.Proofs.JsonReader
import JavaSketch.Proofs.Rows
import JavaSketch.Proofs.WrittenFiles
import Mathlib.Data.List.Forall2

/-!
# Documents and index agree

A source file that is converted becomes one document for each method that has lines
to show and one index.  The methods are those that were located, and the lines of each
are cut out of the converted lines of the file.  The documents show the labels and the
lines of these methods in their order, without the characters that documents cannot
hold; the index, read as JSON, gives the same labels and the lines as they are.

**Argument.**  The paths of one source are different, so that each still leads to
what was written under it.  A document is made of the label and the lines by its own
rules for characters; the index is read back as it was written.

**Results.**
* `ofLines_eq_showing`: what a document shows of a label and lines.
* `of_convert_eq_ok`: the methods of a conversion and their lines.
* `ofJson_index`: what an index denotes.
* `convertFile_documents_and_index`: what the files of a source hold.
-/

namespace JavaSketch

open Syntax (Parser SourceUnit)

namespace Document

/-- Whether a paragraph leaves out a character: all that are below the space but the
tab and the line feed, and the last two of the first plane. -/
def leavesOut (c : Char) : Bool :=
  decide (c.toNat ≤ 0x08 ∨ (0x0B ≤ c.toNat ∧ c.toNat ≤ 0x1F) ∨ c.toNat = 0xFFFE ∨
    c.toNat = 0xFFFF)

/-- The document of a label, whose carriage returns read back as line breaks, and
lines. -/
def showing (label : String) (lines : List String) : Document where
  heading := String.ofList (label.toList.map fun c => if c = '\r' then '\n' else c)
  paragraphs := lines.map fun line => String.ofList (line.toList.filter (!leavesOut ·))

theorem isStripped_eq_leavesOut (c : Char) : isStripped c = leavesOut c := by
  rw [Bool.eq_iff_iff]
  simp only [isStripped, leavesOut, Bool.or_eq_true, Bool.and_eq_true, decide_eq_true_eq,
    beq_iff_eq]
  omega

/-- A document shows its label and its lines, unless the label is refused. -/
theorem ofLines_eq_showing (label : String) (lines : List String) :
    ofLines label lines =
      if label.toList.any isForbidden then .error .unprintableText
      else .ok (showing label lines) := by
  have hlines : lines.map strip =
      lines.map fun line => String.ofList (line.toList.filter (!leavesOut ·)) :=
    List.map_congr_left fun line _ => by simp only [strip, isStripped_eq_leavesOut]
  rw [ofLines_eq, held]
  split
  · rfl
  · rw [Except.map, hlines, brokenText, showing]

theorem eq_showing_of_ofLines_eq_ok {label : String} {lines : List String}
    {document : Document} (h : ofLines label lines = .ok document) :
    document = showing label lines := by
  rw [ofLines_eq_showing] at h
  split_ifs at h
  exact (Except.ok.inj h).symm

end Document

namespace Conversion

theorem shownMethods_eq (conversion : Conversion) :
    conversion.shownMethods = conversion.methods.filter (conversion.methodLines · ≠ []) := by
  refine List.filter_congr fun method _ => ?_
  cases conversion.methodLines method <;> rfl

theorem exists_label_of_signature? {method : Span} (h : method.signature?.isSome) :
    ∃ signature, method.signature? = some signature ∧
      labelOf method = signature.className ++ " " ++ signature.name := by
  obtain ⟨signature, hsignature⟩ := Option.isSome_iff_exists.mp h
  exact ⟨signature, hsignature, by rw [labelOf, hsignature]; rfl⟩

/-- What is converted was located: its methods are the located ones, in their order, and
the lines of each are those of the written and cleaned buffer that it covers. -/
theorem of_convert_eq_ok {unit : SourceUnit} {conversion : Conversion}
    (h : unit.convert none = .ok conversion) :
    ∃ located, unit.locate = .ok located ∧
      conversion.buffer =
        ((LineBuffer.mk (Text.splitLines unit.text)).writeSpans located.spans).1.cleanup ∧
      conversion.methods = located.spans.filter (·.signature?.isSome) ∧
      ∀ method ∈ conversion.methods, 1 ≤ method.first := by
  obtain ⟨located, hlocate, hconversion⟩ := bind_eq_ok_iff.mp h
  obtain rfl := pure_eq_ok_iff.mp hconversion
  refine ⟨located, hlocate, rfl, rfl, fun method hmethod => ?_⟩
  exact SourceUnit.one_le_first_of_mem_spans hlocate (List.mem_filter.mp hmethod).1

end Conversion

namespace Artifact

/-- What the index of some artifacts denotes. -/
theorem ofJson_index (artifacts : List Artifact) (source : String) :
    JsonValue.ofJson (index artifacts source) =
      .object [("source", .string source),
        ("artifacts", .array (artifacts.map fun artifact =>
          .object [("label", .string artifact.label),
            ("lines", .array (artifact.lines.map .string))]))] := by
  have hlines : ∀ lines : List String,
      JsonValue.ofItems (lines.map .string) = lines.map .string := fun lines => by
    rw [JsonValue.ofItems_eq_map, List.map_map]
    rfl
  simp only [index, toJson, JsonValue.ofJson, JsonValue.ofMembers, JsonValue.ofItems_eq_map,
    List.map_map]
  simp only [Function.comp_def, JsonValue.ofJson, JsonValue.ofMembers, hlines]

/-- The documents of some artifacts show their labels and lines, in their order. -/
theorem forall₂_of_documentSteps {artifacts : List Artifact} {target : String}
    {written : List (String × FileContent)}
    (h : written.map .ok = documentSteps artifacts target) :
    List.Forall₂ (fun file artifact =>
      file.2 = .document (.showing artifact.label artifact.lines)) written artifacts := by
  have hlength : (documentNames (artifacts.map (·.label))).length = artifacts.length := by
    rw [length_documentNames, List.length_map]
  unfold documentSteps at h
  generalize documentNames (artifacts.map (·.label)) = names at h hlength
  induction artifacts generalizing names written with
  | nil =>
      obtain rfl : written = [] := by simpa using h
      exact .nil
  | cons artifact artifacts ih =>
      cases names with
      | nil => cases hlength
      | cons name names =>
          rw [List.zip_cons_cons, List.map_cons] at h
          obtain ⟨file, rest, rfl, hfile, hrest⟩ := List.map_eq_cons_iff.mp h
          refine .cons ?_ (ih names hrest (Nat.succ.inj hlength))
          obtain ⟨document, hdocument, rfl⟩ := exists_of_step_eq_ok hfile.symm
          rw [Document.eq_showing_of_ofLines_eq_ok hdocument]

end Artifact

namespace Run

theorem artifacts_eq_nil_iff (conversion : Conversion) :
    conversion.artifacts = [] ↔ conversion.shownMethods = [] :=
  List.map_eq_nil_iff

/-- What was converted, if a source file could be examined. -/
theorem exists_of_examine_eq_ok {parse : Parser} {files : Store} {source : String}
    {artifacts : List Artifact} (h : examine parse .pseudocode files source = .ok artifacts) :
    ∃ text unit conversion, files.readText source = .ok text ∧
      SourceUnit.read parse source text = .ok unit ∧ unit.convert none = .ok conversion ∧
      artifacts = conversion.artifacts := by
  obtain ⟨unit, hunit, h⟩ := bind_eq_ok_iff.mp h
  obtain ⟨conversion, hconversion, h⟩ := bind_eq_ok_iff.mp h
  obtain ⟨text, htext, hread⟩ := bind_eq_ok_iff.mp hunit
  exact ⟨text, unit, conversion, htext, hread, hconversion, (pure_eq_ok_iff.mp h).symm⟩

/-- A turn that is done wrote the documents of what is shown and the index of it. -/
theorem exists_of_writtenIn_of_done {parse : Parser} {outDir root : String}
    {turn : String × Store} {artifacts : List Artifact}
    (hdone : isDone parse .pseudocode outDir root turn = true)
    (hexamine : examine parse .pseudocode turn.2 turn.1 = .ok artifacts)
    (hartifacts : artifacts ≠ []) :
    ∃ documents path, writtenIn parse .pseudocode outDir root turn =
        documents ++ [(path, .text (Artifact.index artifacts turn.1).write)] ∧
      List.Forall₂ (fun file artifact =>
        file.2 = .document (.showing artifact.label artifact.lines)) documents artifacts := by
  obtain ⟨_, _, hfailed⟩ | ⟨artifacts', rest, hexamine', hsteps, hrest⟩ :=
    exists_rest_of_turn parse .pseudocode outDir root turn
  · rw [hfailed] at hdone
    cases hdone
  obtain rfl := Except.ok.inj (hexamine.symm.trans hexamine')
  rw [hrest.mp hdone, List.append_nil] at hsteps
  simp only [steps, List.isEmpty_iff, if_neg hartifacts] at hsteps
  obtain ⟨documents, last, hwritten, hdocuments, hlast⟩ := List.map_eq_append_iff.mp hsteps.symm
  obtain ⟨file, rfl, hfile⟩ := List.map_eq_singleton_iff.mp hlast
  obtain ⟨name, _, rfl⟩ := Artifact.exists_of_indexStep_eq_ok hfile.symm
  exact ⟨documents, _, hwritten, Artifact.forall₂_of_documentSteps hdocuments⟩

/-- What was written in a turn that is done is there when it ends. -/
theorem find?_of_mem_writtenIn {parse : Parser} {mode : Mode} {outDir root : String}
    {turn : String × Store} (hmode : mode ≠ .table)
    (hdone : isDone parse mode outDir root turn = true) :
    ∀ file ∈ writtenIn parse mode outDir root turn,
      (Run.turn parse mode outDir root turn.2 turn.1).files.find? file.1 =
        some (.file file.2) := by
  have htarget := canHold_target hmode outDir
  refine Store.find?_of_records_of_nodup htarget (fun file => isOutput_of_mem_writtenIn)
    (records_turn parse mode outDir root turn) ?_
  rw [paths_of_done hdone]
  exact Path.nodup_map_join htarget (fun name => isName_of_mem_namesAt) (nodup_namesAt turn)

/-- **Documents and index agree.**  If the conversion of a source file comes to its end,
it was read, located and converted.  Its methods are the located ones; without a body
they have no lines to show, with a body those of the converted buffer from their first to
their last.  Where no method has lines to show, nothing was written; else one document
for each of these methods and an index, and when it ends these hold the labels and the
lines of the methods. -/
theorem convertFile_documents_and_index (parse : Parser) (outDir root source : String)
    {session later : Session} {written : List String}
    (h : (convertFile parse outDir root source).run session = (.ok written, later)) :
    ∃ text unit located conversion, session.store.readText source = .ok text ∧
      SourceUnit.read parse source text = .ok unit ∧ unit.locate = .ok located ∧
      unit.convert none = .ok conversion ∧
      conversion.buffer =
        ((LineBuffer.mk (Text.splitLines unit.text)).writeSpans located.spans).1.cleanup ∧
      conversion.methods = located.spans.filter (·.signature?.isSome) ∧
      (∀ method ∈ conversion.methods,
        (∃ signature, method.signature? = some signature ∧
          Conversion.labelOf method = signature.className ++ " " ++ signature.name) ∧
        (method.hasBody = false → conversion.methodLines method = []) ∧
        (method.hasBody = true →
          (method.last ≤ conversion.buffer.size →
            ((conversion.methodLines method).length : Int) = method.last - method.first + 1) ∧
          ∀ index : Nat, (conversion.methodLines method)[index]? =
            if method.first + index ≤ method.last then
              conversion.buffer.line? (method.first + index)
            else none)) ∧
      conversion.shownMethods = conversion.methods.filter (conversion.methodLines · ≠ []) ∧
      (conversion.shownMethods = [] → written = [] ∧ later.store = session.store) ∧
      (conversion.shownMethods ≠ [] → ∃ documents index indexText,
        written = documents ++ [index] ∧
        List.Forall₂ (fun path method => later.store.find? path = some (.file (.document
          (.showing (Conversion.labelOf method) (conversion.methodLines method)))))
            documents conversion.shownMethods ∧
        later.store.find? index = some (.file (.text indexText)) ∧
        JsonValue.read indexText = some (.object [("source", .string source),
          ("artifacts", .array (conversion.shownMethods.map fun method =>
            .object [("label", .string (Conversion.labelOf method)),
              ("lines", .array ((conversion.methodLines method).map .string))]))])) := by
  have hturn := actsAs_convertFile parse outDir root source session
  rw [h] at hturn
  obtain ⟨hnone, hpaths, hfiles⟩ := Progress.of_outcome_eq_ok hturn.symm
  have hdone : isDone parse .pseudocode outDir root (source, session.store) = true := by
    rw [isDone, hnone]
    rfl
  cases hexamine : examine parse .pseudocode session.store source with
  | error failure => simp [turn, hexamine] at hnone
  | ok artifacts =>
      obtain ⟨text, unit, conversion, htext, hread, hconversion, rfl⟩ :=
        exists_of_examine_eq_ok hexamine
      obtain ⟨located, hlocate, hbuffer, hmethods, hfirst⟩ := Conversion.of_convert_eq_ok hconversion
      refine ⟨text, unit, located, conversion, htext, hread, hlocate, hconversion, hbuffer,
        hmethods, fun method hmethod => ⟨?_, LineBuffer.methodLines_of_no_body, fun hbody => ?_⟩,
        conversion.shownMethods_eq, fun hshown => ?_, fun hshown => ?_⟩
      · rw [hmethods] at hmethod
        exact Conversion.exists_label_of_signature? (List.mem_filter.mp hmethod).2
      · exact ⟨Conversion.length_methodLines hbody (hfirst method hmethod),
          Conversion.getElem?_methodLines hbody (hfirst method hmethod)⟩
      · have hturn : turn parse .pseudocode outDir root session.store source =
            .idle session.store none := by
          rw [turn, hexamine]
          simp [steps, (artifacts_eq_nil_iff conversion).mpr hshown]
        rw [hturn] at hpaths hfiles
        exact ⟨hpaths.symm, hfiles.symm⟩
      · obtain ⟨documents, index, hwritten, hdocuments⟩ :=
          exists_of_writtenIn_of_done hdone hexamine
            (fun hnil => hshown ((artifacts_eq_nil_iff conversion).mp hnil))
        have hfind : ∀ file ∈ writtenIn parse .pseudocode outDir root (source, session.store),
            later.store.find? file.1 = some (.file file.2) := by
          have hfinal := find?_of_mem_writtenIn (by decide) hdone
          rwa [hfiles] at hfinal
        rw [hwritten] at hfind
        have hshows : List.Forall₂ (fun file method => later.store.find? file.1 =
            some (.file (.document (.showing (Conversion.labelOf method)
              (conversion.methodLines method))))) documents conversion.shownMethods := by
          have hboth := List.forall₂_and_left _ _ |>.mpr
            ⟨fun file hfile => hfind file (List.mem_append_left _ hfile),
              List.forall₂_map_right_iff.mp hdocuments⟩
          exact hboth.imp fun file method hfile => hfile.2 ▸ hfile.1
        refine ⟨documents.map (·.1), index, (Artifact.index conversion.artifacts source).write,
          ?_, List.forall₂_map_left_iff.mpr hshows,
          hfind _ (List.mem_append_right _ List.mem_cons_self), ?_⟩
        · rw [← hpaths]
          exact (congrArg (List.map Prod.fst) hwritten).trans (by simp)
        · rw [JsonValue.read_write, Artifact.ofJson_index, Conversion.artifacts, List.map_map]
          rfl

theorem unitAt_eq_ok {parse : Parser} {files : Store} {source text : String} {unit : SourceUnit}
    (htext : files.readText source = .ok text)
    (hread : SourceUnit.read parse source text = .ok unit) :
    unitAt parse files source = .ok unit := by
  rw [unitAt, htext]
  exact hread

theorem examine_eq_ok {parse : Parser} {files : Store} {source : String} {unit : SourceUnit}
    {conversion : Conversion} (hunit : unitAt parse files source = .ok unit)
    (hconvert : unit.convert none = .ok conversion) :
    examine parse .pseudocode files source = .ok conversion.artifacts := by
  rw [examine, hunit]
  simp only [bind, Except.bind, hconvert, pure, Except.pure]

theorem exists_run_of_turn {parse : Parser} {outDir root source : String} {session : Session}
    {paths : List String}
    (hdone : (turn parse .pseudocode outDir root session.store source).failure = none)
    (hpaths : (turn parse .pseudocode outDir root session.store source).written.map (·.1) =
      paths) :
    ∃ later, (convertFile parse outDir root source).run session = (.ok paths, later) := by
  have hrun := actsAs_convertFile parse outDir root source session
  beta_reduce at hrun
  rw [Progress.outcome, Progress.give_of_done hdone, hpaths] at hrun
  exact ⟨_, Prod.ext (Prod.mk.inj hrun).1 rfl⟩

/-- The path of a source file with characters that an index has to escape. -/
def quotedPath : String :=
  "A\"\\.java"

/-- The lines of that file.  It has two methods of one name and one without a body; one
line has characters to be escaped, and one of these is left out of documents. -/
def threeMethodsLines : List String :=
  ["class A \x7b", "void f() \x7b", "g(\"\\\x01\");", "\x7d", "int f(int a) \x7b", "\x7d",
    "void h();", "\x7d"]

/-- A session in which it is to be converted. -/
def threeMethods : Session :=
  ⟨⟨"/", [([quotedPath], .file (.text (Text.join "\n" threeMethodsLines))),
      (["out"], .directory), (["out", "pseudocode"], .directory)]⟩, [], false⟩

/-- Its first method. -/
def firstOverload : Span :=
  ⟨.method ⟨"A", "f", "", "", true, true, false⟩, 2, 4, by decide⟩

/-- Its second method, which has the same name. -/
def secondOverload : Span :=
  ⟨.method ⟨"A", "f", "a", "", false, true, false⟩, 5, 6, by decide⟩

/-- Its third method, which has no body. -/
def withoutBody : Span :=
  ⟨.method ⟨"A", "h", "", "", true, false, true⟩, 7, 7, by decide⟩

/-- All of them, as they are located. -/
def locatedMethods : Located :=
  ⟨[firstOverload, secondOverload, withoutBody], []⟩

/-- The lines after the conversion, with these methods. -/
def threeMethodsConverted : Conversion :=
  .ofLocated locatedMethods ⟨threeMethodsLines⟩

theorem locate_threeMethods :
    ∃ unit, unitAt Java.parse threeMethods.store quotedPath = .ok unit ∧
      unit.locate = .ok locatedMethods ∧ unit.convert none = .ok threeMethodsConverted := by
  have hread : ((unitAt Java.parse threeMethods.store quotedPath).map fun unit =>
      (unit.locate, unit.buffer)) = .ok (.ok locatedMethods, ⟨threeMethodsLines⟩) := by
    decide +kernel
  obtain ⟨unit, hunit, hgiven⟩ := exists_of_map_eq_ok hread
  obtain ⟨hlocate, hbuffer⟩ := Prod.mk.inj hgiven.symm
  refine ⟨unit, hunit, hlocate, ?_⟩
  rw [SourceUnit.convert_eq_ok hlocate, Option.getD_none, hbuffer, threeMethodsConverted]

/-- The first two are shown, the third is not. -/
theorem shown_threeMethods :
    threeMethodsConverted.shownMethods = [firstOverload, secondOverload] ∧
      Conversion.labelOf firstOverload = "A f" ∧ Conversion.labelOf secondOverload = "A f" ∧
      threeMethodsConverted.methodLines firstOverload =
        ["procedure f()", "g(\"\\\x01\")", "endprocedure"] ∧
      threeMethodsConverted.methodLines secondOverload = ["function f(a)", "endfunction"] := by
  decide

theorem artifacts_threeMethods :
    threeMethodsConverted.artifacts =
      [⟨"A f", ["procedure f()", "g(\"\\\x01\")", "endprocedure"]⟩,
        ⟨"A f", ["function f(a)", "endfunction"]⟩] := by
  obtain ⟨hshown, hfirst, hsecond, hfirstLines, hsecondLines⟩ := shown_threeMethods
  simp only [Conversion.artifacts, hshown, List.map_cons, List.map_nil, hfirst, hsecond,
    hfirstLines, hsecondLines]

theorem run_threeMethods :
    ∃ later, (convertFile Java.parse "out" "" quotedPath).run threeMethods =
      (.ok ["out/pseudocode/A f.docx", "out/pseudocode/A f_1.docx",
        "out/pseudocode/A\"\\.json"], later) := by
  obtain ⟨unit, hunit, _, hconvert⟩ := locate_threeMethods
  have hexamine := examine_eq_ok hunit hconvert
  rw [artifacts_threeMethods] at hexamine
  have hdocuments : Artifact.documentSteps
      [⟨"A f", ["procedure f()", "g(\"\\\x01\")", "endprocedure"]⟩,
        ⟨"A f", ["function f(a)", "endfunction"]⟩] (Path.join "out" pseudocodeFolder) =
      [("A f.docx", FileContent.document ⟨"A f", ["procedure f()", "g(\"\\\")", "endprocedure"]⟩),
        ("A f_1.docx", .document ⟨"A f", ["function f(a)", "endfunction"]⟩)].map fun file =>
          .ok (Path.join (Path.join "out" pseudocodeFolder) file.1, file.2) := by
    decide
  have hname : moduleName "/" quotedPath "" = .ok "A\"\\" := by decide
  have hfolder : threeMethods.store.DirectoryAt (Path.join "out" Mode.pseudocode.folder)
      ["out", "pseudocode"] :=
    ⟨by decide, by decide⟩
  have hturn := turn_of_takes hexamine
    (steps_pseudocode (List.cons_ne_nil _ _) hdocuments hname) (by simp)
    hfolder.makeDirectories hfolder (by decide)
  exact exists_run_of_turn (by rw [hturn]) (by rw [hturn]; decide)

/-- Two of its three methods are shown, each in its document and in the index. -/
theorem convertFile_threeMethods :
    ∃ (later : Session) (unit : SourceUnit) (conversion : Conversion) (indexText : String),
      (convertFile Java.parse "out" "" quotedPath).run threeMethods =
        (.ok ["out/pseudocode/A f.docx", "out/pseudocode/A f_1.docx",
          "out/pseudocode/A\"\\.json"], later) ∧
      unit.locate = .ok locatedMethods ∧ unit.convert none = .ok conversion ∧
      conversion.methods = [firstOverload, secondOverload, withoutBody] ∧
      conversion.shownMethods = [firstOverload, secondOverload] ∧
      later.store.find? "out/pseudocode/A f.docx" = some (.file (.document
        ⟨"A f", ["procedure f()", "g(\"\\\")", "endprocedure"]⟩)) ∧
      later.store.find? "out/pseudocode/A f_1.docx" = some (.file (.document
        ⟨"A f", ["function f(a)", "endfunction"]⟩)) ∧
      later.store.find? "out/pseudocode/A\"\\.json" = some (.file (.text indexText)) ∧
      JsonValue.read indexText = some (.object [("source", .string quotedPath),
        ("artifacts", .array [
          .object [("label", .string "A f"), ("lines", .array [.string "procedure f()",
            .string "g(\"\\\x01\")", .string "endprocedure"])],
          .object [("label", .string "A f"),
            ("lines", .array [.string "function f(a)", .string "endfunction"])]])]) := by
  obtain ⟨later, hrun⟩ := run_threeMethods
  obtain ⟨unit, hunit, hlocate, hconvert⟩ := locate_threeMethods
  obtain ⟨text, unit', located, conversion, htext, hread, hlocated, hconverted, _, hmethods, _, _,
    _, hfiles⟩ := convertFile_documents_and_index Java.parse "out" "" quotedPath hrun
  obtain rfl := Except.ok.inj (hunit.symm.trans (unitAt_eq_ok htext hread))
  obtain rfl := Except.ok.inj (hlocate.symm.trans hlocated)
  obtain rfl := Except.ok.inj (hconvert.symm.trans hconverted)
  obtain ⟨hshown, hfirstLabel, hsecondLabel, hfirstLines, hsecondLines⟩ := shown_threeMethods
  obtain ⟨documents, index, indexText, hwritten, hdocuments, hindex, hdenotes⟩ :=
    hfiles (by rw [hshown]; exact List.cons_ne_nil _ _)
  rw [hshown] at hdocuments hdenotes
  obtain ⟨first, rest, hfirst, hrest, rfl⟩ := List.forall₂_cons_right_iff.mp hdocuments
  obtain ⟨second, none, hsecond, hnone, rfl⟩ := List.forall₂_cons_right_iff.mp hrest
  obtain rfl := List.forall₂_nil_right_iff.mp hnone
  obtain ⟨rfl, rfl, rfl⟩ : "out/pseudocode/A f.docx" = first ∧
      "out/pseudocode/A f_1.docx" = second ∧ "out/pseudocode/A\"\\.json" = index := by
    simpa using hwritten
  rw [hfirstLabel, hfirstLines] at hfirst
  rw [hsecondLabel, hsecondLines] at hsecond
  refine ⟨later, unit, _, indexText, hrun, hlocate, hconvert, hmethods.trans rfl, hshown,
    hfirst.trans (by decide), hsecond.trans (by decide), hindex, ?_⟩
  simp only [hdenotes, List.map_cons, List.map_nil, hfirstLabel, hsecondLabel, hfirstLines,
    hsecondLines]

end Run

end JavaSketch
