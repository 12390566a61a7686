import JavaSketch.Pseudocode
import Mathlib.Data.List.DropRight
import Mathlib.Logic.Function.Iterate

/-!
# Repeated cleanup

The cleanup strips one terminator from a line and then blanks out the braces.  A brace
that becomes a space cannot become a terminator, and a terminator before a brace stays
behind a space.  So further runs only go on with the terminators the line ended in from the
start.

**Invariant.**  A line is a body that does not end in a terminator, followed by `t`
terminators.  A run blanks out the braces of the body, after which it still does not end in
a terminator, and leaves `t - 1` terminators.

**Results.**
* `cleanChars_append_terminators`: what one run makes of a body and its terminators.
* `iterate_cleanChars_append_terminators`: what any number of runs makes of them.
* `iterate_cleanup`: the lines of a buffer after any number of runs, and when the second run
  changes nothing.
-/

namespace JavaSketch

/-- A character as the cleanup leaves it: a space for a brace. -/
def blankBrace (c : Char) : Char :=
  if isBrace c then ' ' else c

/-- The number of terminators that a line ends in. -/
def trailingTerminators (cs : List Char) : Nat :=
  (cs.rtakeWhile (· == ';')).length

theorem isBrace_blankBrace (c : Char) : isBrace (blankBrace c) = false := by
  unfold blankBrace
  split
  · decide
  · rename_i h
    simpa using h

theorem blankBrace_blankBrace (c : Char) : blankBrace (blankBrace c) = blankBrace c := by
  rw [blankBrace, isBrace_blankBrace]
  rfl

theorem blankBrace_eq_terminator_iff {c : Char} : blankBrace c = ';' ↔ c = ';' := by
  unfold blankBrace
  split
  · rename_i h
    constructor
    · exact fun hspace => absurd hspace (by decide)
    · rintro rfl
      exact absurd h (by decide)
  · exact Iff.rfl

/-- A line is a body that does not end in a terminator and the terminators after it. -/
theorem exists_eq_append_terminators (cs : List Char) :
    ∃ body, body.getLast? ≠ some ';' ∧
      cs = body ++ List.replicate (trailingTerminators cs) ';' := by
  refine ⟨cs.rdropWhile (· == ';'), ?_, ?_⟩
  · intro hlast
    have hne : cs.rdropWhile (· == ';') ≠ [] := fun hnil => by simp [hnil] at hlast
    rw [List.getLast?_eq_some_getLast hne] at hlast
    exact List.rdropWhile_last_not _ cs hne (by simpa using Option.some.inj hlast)
  · have hall : cs.rtakeWhile (· == ';') = List.replicate (trailingTerminators cs) ';' := by
      refine List.eq_replicate_of_mem fun c hc => ?_
      simpa using List.mem_rtakeWhile_imp hc
    rw [← hall, List.rdropWhile_append_rtakeWhile]

section Runs

variable {body : List Char} (hbody : body.getLast? ≠ some ';')

include hbody

/-- Blanking out braces does not bring a terminator to the end of a line. -/
theorem getLast?_map_blankBrace_ne : (body.map blankBrace).getLast? ≠ some ';' := by
  rw [List.getLast?_map]
  intro hlast
  obtain ⟨c, hc, hclean⟩ := Option.map_eq_some_iff.mp hlast
  obtain rfl := blankBrace_eq_terminator_iff.mp hclean
  exact hbody hc

/-- One run strips one terminator and blanks out the braces of the body. -/
theorem cleanChars_append_terminators (t : Nat) :
    cleanChars (body ++ List.replicate t ';') =
      body.map blankBrace ++ List.replicate (t - 1) ';' := by
  cases t with
  | zero =>
      rw [List.replicate_zero, List.append_nil, cleanChars, if_neg hbody, List.append_nil]
      rfl
  | succ t =>
      have hline : body ++ List.replicate (t + 1) ';' =
          (body ++ List.replicate t ';') ++ [';'] := by
        rw [List.replicate_succ', List.append_assoc]
      have hmap : (List.replicate t ';').map blankBrace = List.replicate t ';' :=
        List.map_replicate
      rw [hline, cleanChars, List.getLast?_concat, if_pos rfl, List.dropLast_concat,
        Nat.add_sub_cancel]
      change (body ++ List.replicate t ';').map blankBrace = _
      rw [List.map_append, hmap]

/-- Any number of runs strip as many terminators, as long as there are some. -/
theorem iterate_cleanChars_append_terminators (t k : Nat) :
    cleanChars^[k + 1] (body ++ List.replicate t ';') =
      body.map blankBrace ++ List.replicate (t - (k + 1)) ';' := by
  induction k with
  | zero => exact cleanChars_append_terminators hbody t
  | succ k ih =>
      have hbody' := getLast?_map_blankBrace_ne hbody
      have htwice : (body.map blankBrace).map blankBrace = body.map blankBrace := by
        simp [blankBrace_blankBrace]
      rw [Function.iterate_succ_apply', ih, cleanChars_append_terminators hbody', htwice,
        Nat.sub_sub]

/-- Only a line with two terminators at least ends in two of them. -/
theorem twoTerminators_suffix_iff (t : Nat) :
    [';', ';'] <:+ body ++ List.replicate t ';' ↔ 2 ≤ t := by
  constructor
  · rintro ⟨front, hfront⟩
    match t with
    | 0 =>
        rw [List.replicate_zero, List.append_nil] at hfront
        exact absurd (by simp [← hfront]) hbody
    | 1 =>
        have hstripped : front ++ [';'] = body := by
          simpa using congrArg List.dropLast hfront
        exact absurd (by simp [← hstripped]) hbody
    | t + 2 => exact Nat.le_add_left 2 t
  · intro h
    refine ⟨body ++ List.replicate (t - 2) ';', ?_⟩
    have hsplit : List.replicate t ';' = List.replicate (t - 2) ';' ++ [';', ';'] := by
      rw [show [';', ';'] = List.replicate 2 ';' from rfl, List.replicate_append_replicate,
        Nat.sub_add_cancel h]
    rw [hsplit, List.append_assoc]

end Runs

/-- The characters of a line after any number of runs. -/
theorem iterate_cleanChars (cs : List Char) {k : Nat} (hk : 1 ≤ k) :
    cleanChars^[k] cs = (cs.rdrop (min k (trailingTerminators cs))).map blankBrace := by
  obtain ⟨body, hbody, hcs⟩ := exists_eq_append_terminators cs
  obtain ⟨j, rfl⟩ := Nat.exists_eq_add_of_le' hk
  generalize trailingTerminators cs = t at hcs ⊢
  have hmin : min (j + 1) t ≤ (List.replicate t ';').length := by
    rw [List.length_replicate]
    exact Nat.min_le_right _ _
  have hkept : (List.replicate t ';').rdrop (min (j + 1) t) =
      List.replicate (t - (j + 1)) ';' := by
    rw [List.rdrop, List.take_replicate, List.length_replicate]
    congr 1
    omega
  have hmap : (List.replicate (t - (j + 1)) ';').map blankBrace =
      List.replicate (t - (j + 1)) ';' := List.map_replicate
  rw [hcs, iterate_cleanChars_append_terminators hbody, List.rdrop_append_of_le_length _ hmin,
    hkept, List.map_append, hmap]

/-- The second run changes a line if and only if it ends in two terminators. -/
theorem cleanChars_cleanChars_eq_iff (cs : List Char) :
    cleanChars (cleanChars cs) = cleanChars cs ↔ ¬ [';', ';'] <:+ cs := by
  obtain ⟨body, hbody, hcs⟩ := exists_eq_append_terminators cs
  have hone := iterate_cleanChars_append_terminators hbody (trailingTerminators cs) 0
  have htwo := iterate_cleanChars_append_terminators hbody (trailingTerminators cs) 1
  rw [← hcs] at hone htwo
  have hsuffix := twoTerminators_suffix_iff hbody (trailingTerminators cs)
  rw [← hcs] at hsuffix
  change cleanChars^[1 + 1] cs = cleanChars^[0 + 1] cs ↔ _
  rw [hone, htwo, hsuffix, List.append_cancel_left_eq, List.replicate_left_inj]
  omega

theorem iterate_cleanLine (line : String) (k : Nat) :
    cleanLine^[k] line = String.ofList (cleanChars^[k] line.toList) := by
  induction k with
  | zero => exact String.ofList_toList.symm
  | succ k ih =>
      rw [Function.iterate_succ_apply', ih, Function.iterate_succ_apply', cleanLine,
        String.toList_ofList]

namespace LineBuffer

theorem lines_iterate_cleanup (buffer : LineBuffer) (k : Nat) :
    (cleanup^[k] buffer).lines = buffer.lines.map cleanLine^[k] := by
  induction k with
  | zero => simp
  | succ k ih =>
      rw [Function.iterate_succ_apply', cleanup, ih, List.map_map,
        ← Function.iterate_succ']

/-- The second run changes nothing if and only if it changes no line. -/
theorem cleanup_cleanup_eq_iff (buffer : LineBuffer) :
    buffer.cleanup.cleanup = buffer.cleanup ↔
      ∀ line ∈ buffer.lines, ¬ [';', ';'] <:+ line.toList := by
  have hline : ∀ line : String, cleanLine (cleanLine line) = cleanLine line ↔
      ¬ [';', ';'] <:+ line.toList := by
    intro line
    rw [← cleanChars_cleanChars_eq_iff, cleanLine, cleanLine, String.toList_ofList,
      String.ofList_inj]
  simp only [cleanup, LineBuffer.mk.injEq, List.map_map, List.map_inj_left, Function.comp_apply,
    hline]

/-- **Repeated cleanup.**  After any number of runs, one at least, a buffer has as many lines
as before.  Each of them is the line without as many of its trailing terminators as there were
runs, if it had as many, and with a space in place of each brace.  So no brace is left, and
the second run changes nothing if and only if no line ends in two terminators. -/
theorem iterate_cleanup (buffer : LineBuffer) {k : Nat} (hk : 1 ≤ k) :
    let cleaned := cleanup^[k] buffer
    cleaned.size = buffer.size ∧
      cleaned.lines = buffer.lines.map (fun line => String.ofList
        ((line.toList.rdrop (min k (trailingTerminators line.toList))).map blankBrace)) ∧
      (∀ line ∈ cleaned.lines, '\x7b' ∉ line.toList ∧ '\x7d' ∉ line.toList) ∧
      (buffer.cleanup.cleanup = buffer.cleanup ↔
        ∀ line ∈ buffer.lines, ¬ [';', ';'] <:+ line.toList) := by
  intro cleaned
  have hlines : cleaned.lines = buffer.lines.map (fun line => String.ofList
      ((line.toList.rdrop (min k (trailingTerminators line.toList))).map blankBrace)) := by
    rw [lines_iterate_cleanup]
    refine List.map_congr_left fun line _ => ?_
    rw [iterate_cleanLine, iterate_cleanChars line.toList hk]
  refine ⟨?_, hlines, ?_, buffer.cleanup_cleanup_eq_iff⟩
  · rw [size, hlines, List.length_map]
    rfl
  · intro line hline
    rw [hlines] at hline
    obtain ⟨old, _, rfl⟩ := List.mem_map.mp hline
    have hbrace : ∀ c ∈ (old.toList.rdrop (min k (trailingTerminators old.toList))).map
        blankBrace, isBrace c = false := by
      intro c hc
      obtain ⟨d, _, rfl⟩ := List.mem_map.mp hc
      exact isBrace_blankBrace d
    rw [String.toList_ofList]
    exact ⟨fun hopen => absurd (hbrace _ hopen) (by decide),
      fun hclose => absurd (hbrace _ hclose) (by decide)⟩

/-- Lines with terminators before and after braces. -/
def terminatedLines : LineBuffer :=
  ⟨["\x7d;", ";;\x7d", "a\x7b;;;", "", ";;"]⟩

/-- Two runs strip two terminators at the ends of lines and none before a brace. -/
theorem iterate_cleanup_terminatedLines :
    1 ≤ 2 ∧ (cleanup^[2] terminatedLines).lines = [" ", ";; ", "a ;", "", ""] ∧
      terminatedLines.cleanup.cleanup ≠ terminatedLines.cleanup := by
  obtain ⟨_, hlines, _, htwice⟩ := iterate_cleanup terminatedLines (show 1 ≤ 2 by decide)
  refine ⟨by decide, ?_, ?_⟩
  · rw [hlines]
    decide +kernel
  · intro hsame
    exact htwice.mp hsame ";;" (by decide) (List.suffix_refl _)

end LineBuffer
end JavaSketch
