import JavaSketch.Proofs.Batches

/-!
# Reports

The report of a batch lists the paths that were handled and those that failed.  What
it says about a path comes from the turn of that path alone, so leaving out failed
paths leaves out what is said about them and nothing else.

**Results.**
* `mem_map_fst_failures`: which paths are reported as failed.
* `perm_turns`: every path of a batch is reported once.
* `outcomes_filter`: failed paths whose turns leave the files alone can be left out.
-/

namespace JavaSketch

namespace Outcome

variable {α : Type}

/-- The path and the message of an outcome that is a failure. -/
def failed? (outcome : Outcome α) : Option (String × String) :=
  outcome.failureMessage?.map (outcome.path, ·)

theorem failed?_of_ok {outcome : Outcome α} {value : α} (h : outcome.result = .ok value) :
    outcome.failed? = none := by
  simp [failed?, failureMessage?, h]

theorem failed?_of_error {outcome : Outcome α} {failure : Failure}
    (h : outcome.result = .error failure) :
    outcome.failed? = some (outcome.path, failure.message) := by
  simp [failed?, failureMessage?, h]

theorem value?_of_ok {outcome : Outcome α} {value : α} (h : outcome.result = .ok value) :
    outcome.value? = some value := by
  simp [value?, h, Except.toOption]

theorem value?_of_error {outcome : Outcome α} {failure : Failure}
    (h : outcome.result = .error failure) : outcome.value? = none := by
  simp [value?, h, Except.toOption]

end Outcome

namespace Batch

variable {α : Type}

section Report

theorem recordFailure_of_not_mem {failed : List (String × String)} {path : String}
    (h : path ∉ failed.map (·.1)) (message : String) :
    recordFailure failed path message = failed ++ [(path, message)] := by
  have hany : failed.any (·.1 == path) = false := by
    rw [List.any_eq_false]
    intro old hold
    rw [beq_iff_eq]
    exact fun hpath => h (hpath ▸ List.mem_map_of_mem hold)
  rw [recordFailure, hany]
  rfl

/-- A failure is recorded under its path, next to the paths that were there. -/
theorem mem_map_fst_recordFailure {failed : List (String × String)}
    {path message other : String} :
    other ∈ (recordFailure failed path message).map (·.1) ↔
      other ∈ failed.map (·.1) ∨ other = path := by
  unfold recordFailure
  split
  · rename_i hany
    obtain ⟨old, hold, hpath⟩ := List.any_eq_true.mp hany
    have hsame : (failed.map fun old => if old.1 == path then (path, message) else old).map
        (·.1) = failed.map (·.1) := by
      rw [List.map_map]
      refine List.map_congr_left fun old _ => ?_
      rw [Function.comp_apply]
      split
      · rename_i heq
        exact (beq_iff_eq.mp heq).symm
      · rfl
    rw [hsame, or_iff_left_of_imp]
    rintro rfl
    exact beq_iff_eq.mp hpath ▸ List.mem_map_of_mem hold
  · simp

/-- The paths that are reported as failed are those whose turns gave no value. -/
theorem mem_map_fst_failures {outcomes : List (Outcome α)} {path : String} :
    path ∈ (failures outcomes).map (·.1) ↔
      ∃ outcome ∈ outcomes, outcome.value? = none ∧ outcome.path = path := by
  -- the failures recorded so far stay recorded
  have hnone : path ∉ ([] : List (String × String)).map (·.1) := List.not_mem_nil
  refine Iff.trans ?_ (or_iff_right hnone)
  rw [failures]
  generalize ([] : List (String × String)) = failed
  induction outcomes generalizing failed with
  | nil => simp
  | cons outcome rest ih =>
      rw [List.foldl_cons, ih]
      cases hresult : outcome.result with
      | ok value =>
          simp [Outcome.failureMessage?, hresult, Outcome.value?_of_ok hresult]
      | error failure =>
          simp [Outcome.failureMessage?, hresult, Outcome.value?_of_error hresult,
            mem_map_fst_recordFailure, or_assoc, eq_comm]

/-- Different paths have each at most one failure, in the order of their turns. -/
theorem failures_eq_filterMap {outcomes : List (Outcome α)}
    (h : (outcomes.map (·.path)).Nodup) :
    failures outcomes = outcomes.filterMap Outcome.failed? := by
  -- the failures recorded so far are of other paths than those to come
  have hother : ∀ outcome ∈ outcomes, outcome.path ∉ ([] : List (String × String)).map (·.1) := by
    simp
  rw [← List.nil_append (outcomes.filterMap Outcome.failed?), failures]
  generalize ([] : List (String × String)) = failed at hother ⊢
  induction outcomes generalizing failed with
  | nil => simp
  | cons outcome rest ih =>
      obtain ⟨hfirst, hrest⟩ := List.nodup_cons.mp h
      have hrestOther : ∀ other ∈ rest, other.path ∉ failed.map (·.1) := fun other hmem =>
        hother other (List.mem_cons_of_mem outcome hmem)
      rw [List.foldl_cons]
      cases hmessage : outcome.failureMessage? with
      | none =>
          rw [List.filterMap_cons_none (by simp [Outcome.failed?, hmessage])]
          exact ih hrest failed hrestOther
      | some message =>
          have hsome : outcome.failed? = some (outcome.path, message) := by
            simp [Outcome.failed?, hmessage]
          simp only [List.filterMap_cons_some hsome,
            recordFailure_of_not_mem (hother outcome List.mem_cons_self)]
          rw [ih hrest]
          · simp
          · intro other hmem hpath
            rw [List.map_append, List.mem_append] at hpath
            rcases hpath with hold | hnew
            · exact hrestOther other hmem hold
            · rw [List.map_singleton, List.mem_singleton] at hnew
              exact hfirst (List.mem_map.mpr ⟨other, hmem, hnew⟩)

/-- Every path of a batch was either processed or failed, and is reported once. -/
theorem perm_processed_failed {outcomes : List (Outcome α)}
    (h : (outcomes.map (·.path)).Nodup) (written : List String) :
    ((report outcomes written).processed ++ (report outcomes written).failed.map (·.1)).Perm
      (outcomes.map (·.path)) := by
  have hfailed : (outcomes.filterMap Outcome.failed?).map (·.1) =
      (outcomes.filter fun outcome => !outcome.value?.isSome).map (·.path) := by
    clear h
    induction outcomes with
    | nil => rfl
    | cons outcome rest ih =>
        cases hresult : outcome.result with
        | ok value =>
            rw [List.filterMap_cons_none (Outcome.failed?_of_ok hresult),
              List.filter_cons_of_neg (by simp [Outcome.value?_of_ok hresult]), ih]
        | error failure =>
            rw [List.filterMap_cons_some (Outcome.failed?_of_error hresult),
              List.filter_cons_of_pos (by simp [Outcome.value?_of_error hresult]),
              List.map_cons, List.map_cons, ih]
  simp only [report, failures_eq_filterMap h, hfailed, ← List.map_append]
  exact (List.filter_append_perm _ outcomes).map _

section Filter

variable {outcomes : List (Outcome α)} {keep : String → Bool}

theorem values_filter
    (h : ∀ outcome ∈ outcomes, keep outcome.path = false → outcome.value? = none) :
    values (outcomes.filter (keep ·.path)) = values outcomes := by
  induction outcomes with
  | nil => rfl
  | cons outcome rest ih =>
      have hrest := ih fun other hmem => h other (List.mem_cons_of_mem outcome hmem)
      simp only [values] at hrest ⊢
      cases hkeep : keep outcome.path with
      | true =>
          rw [List.filter_cons_of_pos (by simpa using hkeep), List.filterMap_cons,
            List.filterMap_cons, hrest]
      | false =>
          rw [List.filter_cons_of_neg (by simp [hkeep]), hrest,
            List.filterMap_cons_none (h outcome List.mem_cons_self hkeep)]

/-- Leaving out failed paths leaves them out of the failures and nothing else. -/
theorem report_filter (hnodup : (outcomes.map (·.path)).Nodup)
    (h : ∀ outcome ∈ outcomes, keep outcome.path = false → outcome.value? = none)
    (written : List String) :
    report (outcomes.filter (keep ·.path)) written =
      { report outcomes written with
        failed := (report outcomes written).failed.filter (keep ·.1) } := by
  have hprocessed : (outcomes.filter (keep ·.path)).filter (·.value?.isSome) =
      outcomes.filter (·.value?.isSome) := by
    rw [List.filter_filter]
    refine List.filter_congr fun outcome hmem => ?_
    cases hkeep : keep outcome.path with
    | true => simp
    | false => simp [h outcome hmem hkeep]
  have hnodup' : ((outcomes.filter (keep ·.path)).map (·.path)).Nodup :=
    hnodup.sublist (List.filter_sublist.map _)
  have hfailed : (outcomes.filter (keep ·.path)).filterMap Outcome.failed? =
      (outcomes.filterMap Outcome.failed?).filter (keep ·.1) := by
    rw [List.filterMap_filter, List.filter_filterMap]
    refine List.filterMap_congr fun outcome _ => ?_
    unfold Outcome.failed?
    cases outcome.failureMessage? <;> cases hkeep : keep outcome.path <;>
      simp [Option.filter, hkeep]
  simp only [report, hprocessed, failures_eq_filterMap hnodup, failures_eq_filterMap hnodup',
    hfailed]

end Filter

end Report

section Turns

variable {effect : String → Effect α} {files : Store} {paths : List String}

/-- Turns that leave the files alone can be left out of a batch. -/
theorem turns_filter {keep : String → Bool}
    (h : ∀ turn ∈ turns effect files paths, keep turn.1 = false →
      (effect turn.1 turn.2).2 = turn.2) :
    turns effect files (paths.filter keep) =
        (turns effect files paths).filter (fun turn => keep turn.1) ∧
      filesAfter effect files (paths.filter keep) = filesAfter effect files paths := by
  induction paths generalizing files with
  | nil => exact ⟨rfl, rfl⟩
  | cons path rest ih =>
      obtain ⟨hturns, hfiles⟩ :=
        ih fun turn hturn => h turn (List.mem_cons_of_mem (path, files) hturn)
      cases hkeep : keep path with
      | true =>
          simp only [turns, filesAfter, List.filter_cons, hkeep, if_true, List.foldl_cons]
          exact ⟨congrArg _ hturns, hfiles⟩
      | false =>
          have hsame : (effect path files).2 = files := h (path, files) List.mem_cons_self hkeep
          rw [hsame] at hturns hfiles
          simp only [turns, filesAfter, List.filter_cons, hkeep, if_false, List.foldl_cons, hsame,
            Bool.false_eq_true]
          exact ⟨hturns, hfiles⟩

theorem eq_of_mem_turns (hnodup : paths.Nodup) {path : String} {before before' : Store}
    (h : (path, before) ∈ turns effect files paths)
    (h' : (path, before') ∈ turns effect files paths) : before = before' := by
  have hkeys : ((turns effect files paths).map (·.1)).Nodup := by rwa [map_fst_turns]
  exact congrArg Prod.snd (List.inj_on_of_nodup_map hkeys h h' rfl)

theorem map_path_outcomes :
    ((turns effect files paths).map (outcomeOf effect)).map (·.path) = paths := by
  rw [List.map_map]
  exact map_fst_turns effect files paths

/-- Failed paths whose turns leave the files alone can be left out of a batch: its
values stay, and of its report all but their failures. -/
theorem outcomes_filter (keep : String → Bool) (hnodup : paths.Nodup)
    (h : ∀ turn ∈ turns effect files paths, keep turn.1 = false →
      ∃ failure, effect turn.1 turn.2 = (.error failure, turn.2)) :
    filesAfter effect files (paths.filter keep) = filesAfter effect files paths ∧
      values ((turns effect files (paths.filter keep)).map (outcomeOf effect)) =
        values ((turns effect files paths).map (outcomeOf effect)) ∧
      ∀ written, report ((turns effect files (paths.filter keep)).map (outcomeOf effect)) written =
        { report ((turns effect files paths).map (outcomeOf effect)) written with
          failed := (report ((turns effect files paths).map (outcomeOf effect))
            written).failed.filter (keep ·.1) } := by
  obtain ⟨hturns, hfiles⟩ := turns_filter fun turn hturn hkeep => by
    obtain ⟨failure, heffect⟩ := h turn hturn hkeep
    rw [heffect]
  have houtcomes : (turns effect files (paths.filter keep)).map (outcomeOf effect) =
      ((turns effect files paths).map (outcomeOf effect)).filter (keep ·.path) := by
    rw [hturns, List.filter_map]
    rfl
  have hvalue : ∀ outcome ∈ (turns effect files paths).map (outcomeOf effect),
      keep outcome.path = false → outcome.value? = none := by
    intro outcome houtcome hkeep
    obtain ⟨turn, hturn, rfl⟩ := List.mem_map.mp houtcome
    obtain ⟨failure, heffect⟩ := h turn hturn hkeep
    exact Outcome.value?_of_error (congrArg Prod.fst heffect)
  refine ⟨hfiles, ?_, fun written => ?_⟩
  · rw [houtcomes, values_filter hvalue]
  · rw [houtcomes, report_filter (by rwa [map_path_outcomes]) hvalue]

theorem perm_turns (hnodup : paths.Nodup) (written : List String) :
    let report := report ((turns effect files paths).map (outcomeOf effect)) written
    (report.processed ++ report.failed.map (·.1)).Perm paths := by
  have hpaths : (((turns effect files paths).map (outcomeOf effect)).map (·.path)).Nodup := by
    rwa [map_path_outcomes]
  have hperm := perm_processed_failed hpaths written
  rwa [map_path_outcomes] at hperm

/-- A turn that gives a failure is among the failures of the report. -/
theorem mem_failed_of_mem_turns (hnodup : paths.Nodup) {turn : String × Store}
    {failure : Failure} (h : turn ∈ turns effect files paths)
    (hfailure : (effect turn.1 turn.2).1 = .error failure) (written : List String) :
    (turn.1, failure.message) ∈
      (report ((turns effect files paths).map (outcomeOf effect)) written).failed := by
  have hpaths : (((turns effect files paths).map (outcomeOf effect)).map (·.path)).Nodup := by
    rwa [map_path_outcomes]
  simp only [report, failures_eq_filterMap hpaths]
  exact List.mem_filterMap.mpr
    ⟨outcomeOf effect turn, List.mem_map_of_mem h, Outcome.failed?_of_error hfailure⟩

end Turns

end Batch

end JavaSketch
