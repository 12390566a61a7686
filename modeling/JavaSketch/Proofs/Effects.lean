import JavaSketch.Session

/-!
# What actions do to files

What an action gives and what it makes of the files depends on the files alone;
what the user has been told does not matter, nor does what the user is told.  An
effect is a function that says both.

**Results.**
* `ActsAs.bind`: the effect of two actions in a row is that of the second after
  that of the first.
* `ActsAs.mapM`: so for an action on each element of a list.
-/

namespace JavaSketch

/-- What is given and what becomes of the files, as a function of the files. -/
abbrev Effect (α : Type) := Store → Except Failure α × Store

namespace Effect

variable {α β : Type}

/-- The files stay as they are and decide what is given. -/
def reading (value : Store → Except Failure α) : Effect α :=
  fun files => (value files, files)

/-- A second effect after a first one that does not fail. -/
def andThen (first : Effect α) (second : α → Effect β) : Effect β :=
  fun files =>
    match first files with
    | (.ok value, later) => second value later
    | (.error failure, later) => (.error failure, later)

/-- An effect for each element of a list, until one fails. -/
def forEach (effect : α → Effect β) : List α → Effect (List β)
  | [] => reading fun _ => .ok []
  | element :: rest =>
      (effect element).andThen fun value =>
        (forEach effect rest).andThen fun values => reading fun _ => .ok (value :: values)

theorem reading_ok_andThen (value : α) (second : α → Effect β) :
    (reading fun _ => .ok value).andThen second = second value :=
  rfl

theorem reading_error_andThen (failure : Failure) (second : α → Effect β) :
    (reading fun _ => .error failure).andThen second = reading fun _ => .error failure :=
  rfl

theorem forEach_reading (value : α → β) (elements : List α) :
    forEach (fun element => reading fun _ => .ok (value element)) elements =
      reading fun _ => .ok (elements.map value) := by
  induction elements with
  | nil => rfl
  | cons element rest ih => rw [forEach, ih, reading_ok_andThen, reading_ok_andThen, List.map_cons]

end Effect

namespace Action

variable {α β : Type}

theorem run_bind (action : Action α) (next : α → Action β) (session : Session) :
    (action >>= next).run session =
      match action.run session with
      | (.ok value, after) => (next value).run after
      | (.error failure, after) => (.error failure, after) := by
  have h : (action >>= next).run session =
      (ExceptT.bindCont next (action.run session).1 : StateM Session _).run
        (action.run session).2 := rfl
  rw [h]
  cases action.run session with
  | mk result after => cases result <;> rfl

/-- An action gives what an effect says and makes of the files what it says. -/
def ActsAs (action : Action α) (effect : Effect α) : Prop :=
  ∀ session, ((action.run session).1, (action.run session).2.store) = effect session.store

namespace ActsAs

theorem of_eq {action : Action α} {effect effect' : Effect α} (h : ActsAs action effect)
    (heq : effect = effect') : ActsAs action effect' :=
  heq ▸ h

theorem pure (value : α) : ActsAs (pure value) (.reading fun _ => .ok value) :=
  fun _ => rfl

theorem ofExcept (value : Except Failure α) : ActsAs (ofExcept value) (.reading fun _ => value) :=
  fun _ => rfl

theorem store : ActsAs Action.store (.reading .ok) :=
  fun _ => rfl

theorem warn (text : String) : ActsAs (Action.warn text) (.reading fun _ => .ok ()) :=
  fun _ => rfl

theorem tell (notice : Notice) : ActsAs (Action.tell notice) (.reading fun _ => .ok ()) := by
  intro session
  cases hverbose : session.verbose <;>
    simp [Action.tell, ofRun, Action.run, ExceptT.run, hverbose, Effect.reading]

theorem updateStore (change : Store → Except Failure Store) :
    ActsAs (Action.updateStore change) fun files =>
      match change files with
      | .ok later => (.ok (), later)
      | .error failure => (.error failure, files) := by
  intro session
  cases hchange : change session.store <;>
    simp [Action.updateStore, ofRun, Action.run, ExceptT.run, hchange]

theorem bind {action : Action α} {next : α → Action β} {first : Effect α}
    {second : α → Effect β} (h : ActsAs action first)
    (hnext : ∀ value, ActsAs (next value) (second value)) :
    ActsAs (action >>= next) (first.andThen second) := by
  intro session
  have hfirst := h session
  rw [run_bind]
  unfold Effect.andThen
  rw [← hfirst]
  cases hrun : action.run session with
  | mk result after =>
      cases result with
      | ok value => exact hnext value after
      | error failure => rfl

theorem mapM {action : α → Action β} {effect : α → Effect β} {elements : List α}
    (h : ∀ element ∈ elements, ActsAs (action element) (effect element)) :
    ActsAs (elements.mapM action) (.forEach effect elements) := by
  induction elements with
  | nil => exact pure []
  | cons element rest ih =>
      have hrest := ih fun other hother => h other (List.mem_cons_of_mem element hother)
      rw [List.mapM_cons]
      exact bind (h element List.mem_cons_self) fun value =>
        bind hrest fun values => pure (value :: values)

/-- An action gives what its effect gives in a session with the files of its effect. -/
theorem exists_run {action : Action α} {effect : Effect α} (h : ActsAs action effect)
    (session : Session) {result : Except Failure α} {files : Store}
    (heffect : effect session.store = (result, files)) :
    ∃ later, action.run session = (result, later) ∧ later.store = files := by
  have hrun := h session
  rw [heffect] at hrun
  obtain ⟨hresult, hfiles⟩ := Prod.mk.inj hrun
  exact ⟨(action.run session).2, Prod.ext hresult rfl, hfiles⟩

/-- Telling something about each element of a list leaves the files alone. -/
theorem forM {action : α → Action PUnit} {elements : List α}
    (h : ∀ element, ActsAs (action element) (.reading fun _ => .ok ⟨⟩)) :
    ActsAs (elements.forM action) (.reading fun _ => .ok ⟨⟩) := by
  induction elements with
  | nil => exact pure PUnit.unit
  | cons element rest ih => exact bind (h element) fun _ => ih

end ActsAs
end Action
end JavaSketch
