import Mathlib

/-!
# Programs with a state and exceptions

A program changes a state and either returns a result or throws; what it changed before it
throws stays changed.  A triple says what holds after it in both cases.  The rules below
follow the constructs a program is written with: sequencing, conditionals, updates of the
state, throwing and catching.
-/

namespace Effects

variable {Failure State Result Next : Type}

/-- What a program does from a state: its outcome and the state it leaves. -/
def run (program : ExceptT Failure (StateM State) Result) (state : State) :
    Except Failure Result × State :=
  (ExceptT.run program).run state

variable {program : ExceptT Failure (StateM State) Result}
  {next : Result → ExceptT Failure (StateM State) Next} {state final : State}

/-- A run is known by its outcome and the state it leaves. -/
theorem run_eq {outcome : Except Failure Result} (h : (run program state).1 = outcome) :
    run program state = (outcome, (run program state).2) :=
  Prod.ext h rfl

theorem run_bind_of_ok {result : Result} (h : run program state = (.ok result, final)) :
    run (program >>= next) state = run (next result) final := by
  change ExceptT.bindCont next (run program state).1 (run program state).2 = _
  rw [h]
  rfl

theorem run_bind_of_error {failure : Failure} (h : run program state = (.error failure, final)) :
    run (program >>= next) state = (.error failure, final) := by
  change ExceptT.bindCont next (run program state).1 (run program state).2 = _
  rw [h]
  rfl

variable {handler : Failure → ExceptT Failure (StateM State) Result}

theorem run_tryCatch_of_ok {result : Result} (h : run program state = (.ok result, final)) :
    run (tryCatch program handler) state = (.ok result, final) := by
  change (match (run program state).1 with
    | .ok value => (pure (.ok value) : StateM State (Except Failure Result))
    | .error failure => ExceptT.run (handler failure)) (run program state).2 = _
  rw [h]
  rfl

theorem run_tryCatch_of_error {failure : Failure}
    (h : run program state = (.error failure, final)) :
    run (tryCatch program handler) state = run (handler failure) final := by
  change (match (run program state).1 with
    | .ok value => (pure (.ok value) : StateM State (Except Failure Result))
    | .error failure => ExceptT.run (handler failure)) (run program state).2 = _
  rw [h]
  rfl

@[simp] theorem run_pure (result : Result) (state : State) :
    run (pure result : ExceptT Failure (StateM State) Result) state = (.ok result, state) := rfl

@[simp] theorem run_throw (failure : Failure) (state : State) :
    run (throw failure : ExceptT Failure (StateM State) Result) state = (.error failure, state) :=
  rfl

@[simp] theorem run_get (state : State) :
    run (get : ExceptT Failure (StateM State) State) state = (.ok state, state) := rfl

@[simp] theorem run_modify (update : State → State) (state : State) :
    run (modify update : ExceptT Failure (StateM State) PUnit) state = (.ok ⟨⟩, update state) := rfl

@[simp] theorem run_set (state final : State) :
    run (set final : ExceptT Failure (StateM State) PUnit) state = (.ok ⟨⟩, final) := rfl

@[simp] theorem run_ofExcept (outcome : Except Failure Result) (state : State) :
    run (MonadExcept.ofExcept outcome : ExceptT Failure (StateM State) Result) state =
      (outcome, state) := by
  cases outcome <;> rfl

/-- A sequence returns exactly when both of its parts do. -/
theorem run_bind_eq_ok {value : Next} :
    run (program >>= next) state = (.ok value, final) ↔
      ∃ result middle, run program state = (.ok result, middle) ∧
        run (next result) middle = (.ok value, final) := by
  match hrun : run program state with
  | (.ok result, middle) =>
      rw [run_bind_of_ok hrun]
      constructor
      · exact fun h => ⟨result, middle, rfl, h⟩
      · rintro ⟨_, _, hsame, h⟩
        cases hsame
        exact h
  | (.error failure, middle) =>
      rw [run_bind_of_error hrun]
      constructor
      · exact nofun
      · rintro ⟨_, _, hsame, _⟩
        cases hsame

/-- With a handler that always throws, what returns is the program itself. -/
theorem run_tryCatch_eq_ok {result : Result}
    (hhandler : ∀ failure state, (run (handler failure) state).1.isOk = false) :
    run (tryCatch program handler) state = (.ok result, final) ↔
      run program state = (.ok result, final) := by
  match hrun : run program state with
  | (.ok value, middle) => rw [run_tryCatch_of_ok hrun]
  | (.error failure, middle) =>
      rw [run_tryCatch_of_error hrun]
      refine iff_of_false (fun h => ?_) nofun
      exact absurd (hhandler failure middle) (by rw [h]; exact nofun)

/-! ## Frames -/

/-- All that a program may do to the state, whether it returns or throws. -/
def Within (relation : State → State → Prop) (program : ExceptT Failure (StateM State) Result) :
    Prop :=
  ∀ state, relation state (run program state).2

variable {relation : State → State → Prop}

theorem Within.of_run {outcome : Except Failure Result} (h : Within relation program)
    (hrun : run program state = (outcome, final)) : relation state final := by
  have hout := h state
  rwa [hrun] at hout

theorem Within.pure [Std.Refl relation] (result : Result) :
    Within relation (pure result : ExceptT Failure (StateM State) Result) :=
  fun state => Std.Refl.refl state

theorem Within.throw [Std.Refl relation] (failure : Failure) :
    Within relation (throw failure : ExceptT Failure (StateM State) Result) :=
  fun state => Std.Refl.refl state

theorem Within.modify {update : State → State} (h : ∀ state, relation state (update state)) :
    Within relation (modify update : ExceptT Failure (StateM State) PUnit) :=
  fun state => h state

theorem Within.get [Std.Refl relation] :
    Within relation (get : ExceptT Failure (StateM State) State) :=
  fun state => Std.Refl.refl state

theorem Within.ofExcept [Std.Refl relation] (outcome : Except Failure Result) :
    Within relation (MonadExcept.ofExcept outcome : ExceptT Failure (StateM State) Result) := by
  intro state
  rw [run_ofExcept]
  exact Std.Refl.refl state

/-- A frame may be said less precisely. -/
theorem Within.mono {relation' : State → State → Prop} (h : Within relation program)
    (hweaker : ∀ state final, relation state final → relation' state final) :
    Within relation' program :=
  fun state => hweaker state _ (h state)

theorem Within.bind [IsTrans State relation] (hfirst : Within relation program)
    (hnext : ∀ result, Within relation (next result)) : Within relation (program >>= next) := by
  intro state
  have hout := hfirst state
  match hrun : run program state with
  | (.ok result, final) =>
      rw [hrun] at hout
      rw [run_bind_of_ok hrun]
      exact Trans.trans hout (hnext result final)
  | (.error failure, final) =>
      rw [hrun] at hout
      rw [run_bind_of_error hrun]
      exact hout

/-! ## Triples -/

/-- From every state in `pre`, the program ends in a state in `post` if it returns, and in one
in `fails` if it throws. -/
def Triple (pre : State → Prop) (program : ExceptT Failure (StateM State) Result)
    (post : Result → State → Prop) (fails : Failure → State → Prop) : Prop :=
  ∀ state, pre state →
    match run program state with
    | (.ok result, final) => post result final
    | (.error failure, final) => fails failure final

variable {pre : State → Prop} {middle middle' : Result → State → Prop}
  {post : Next → State → Prop} {fails fails' : Failure → State → Prop}

/-- A triple may be proved for each state it is about. -/
theorem Triple.of_states (h : ∀ state, pre state → Triple (· = state) program middle fails) :
    Triple pre program middle fails :=
  fun state hpre => h state hpre state rfl

/-- A triple, for one of the states it is about. -/
theorem Triple.at_state (h : Triple pre program middle fails) (hstate : pre state) :
    Triple (· = state) program middle fails := by
  rintro _ rfl
  exact h _ hstate

theorem Triple.ok {result : Result} (h : Triple pre program middle fails) (hpre : pre state)
    (hrun : run program state = (.ok result, final)) : middle result final := by
  have hout := h state hpre
  rwa [hrun] at hout

theorem Triple.error {failure : Failure} (h : Triple pre program middle fails) (hpre : pre state)
    (hrun : run program state = (.error failure, final)) : fails failure final := by
  have hout := h state hpre
  rwa [hrun] at hout

theorem Triple.pure {result : Result} (h : ∀ state, pre state → middle result state) :
    Triple pre (pure result : ExceptT Failure (StateM State) Result) middle fails :=
  fun state hpre => h state hpre

theorem Triple.throw {failure : Failure} (h : ∀ state, pre state → fails failure state) :
    Triple pre (throw failure : ExceptT Failure (StateM State) Result) middle fails :=
  fun state hpre => h state hpre

theorem Triple.set {final : State} {after : PUnit → State → Prop} (h : after ⟨⟩ final) :
    Triple pre (set final : ExceptT Failure (StateM State) PUnit) after fails :=
  fun _ _ => h

theorem Triple.ofExcept {outcome : Except Failure Result}
    (hok : ∀ result, outcome = .ok result → ∀ state, pre state → middle result state)
    (herror : ∀ failure, outcome = .error failure → ∀ state, pre state → fails failure state) :
    Triple pre (MonadExcept.ofExcept outcome : ExceptT Failure (StateM State) Result)
      middle fails := by
  intro state hpre
  rw [run_ofExcept]
  cases houtcome : outcome with
  | ok result => exact hok result houtcome state hpre
  | error failure => exact herror failure houtcome state hpre

/-- What holds of the state a program leaves, whether it returns or throws. -/
theorem Triple.of_final {after : State → Prop}
    (h : ∀ state, pre state → after (run program state).2) :
    Triple pre program (fun _ => after) fun _ => after := by
  intro state hpre
  have hout := h state hpre
  match hrun : run program state with
  | (.ok result, final) =>
      rw [hrun] at hout
      exact hout
  | (.error failure, final) =>
      rw [hrun] at hout
      exact hout

/-- A triple that says the same of both outcomes. -/
theorem Triple.after {after : State → Prop}
    (h : Triple pre program (fun _ => after) fun _ => after) (hpre : pre state) :
    after (run program state).2 := by
  have hout := h state hpre
  match hrun : run program state with
  | (.ok result, final) =>
      rw [hrun] at hout
      exact hout
  | (.error failure, final) =>
      rw [hrun] at hout
      exact hout

/-- What a program cannot change still holds after it. -/
theorem Triple.of_within (h : Within relation program)
    (hkept : ∀ state final, pre state → relation state final → pre final) :
    Triple pre program (fun _ => pre) fun _ => pre :=
  Triple.of_final fun state hpre => hkept state _ hpre (h state)

/-- Changing the state: the rest starts in what it is changed to. -/
theorem Triple.modify_bind (after : State → Prop) {update : State → State}
    {next : PUnit → ExceptT Failure (StateM State) Next}
    (h : ∀ state, pre state → after (update state)) (hnext : Triple after (next ⟨⟩) post fails) :
    Triple pre (modify update >>= next) post fails := by
  intro state hpre
  rw [run_bind_of_ok (run_modify update state)]
  exact hnext _ (h state hpre)

theorem Triple.modify {update : State → State} {after : PUnit → State → Prop}
    (h : ∀ state, pre state → after ⟨⟩ (update state)) :
    Triple pre (modify update : ExceptT Failure (StateM State) PUnit) after fails :=
  fun state hpre => h state hpre

/-- **Sequencing.** -/
theorem Triple.bind (hfirst : Triple pre program middle fails)
    (hnext : ∀ result, Triple (middle result) (next result) post fails) :
    Triple pre (program >>= next) post fails := by
  intro state hpre
  have hout := hfirst state hpre
  match hrun : run program state with
  | (.ok result, final) =>
      rw [hrun] at hout
      rw [run_bind_of_ok hrun]
      exact hnext result final hout
  | (.error failure, final) =>
      rw [hrun] at hout
      rw [run_bind_of_error hrun]
      exact hout

/-- Reading the state: the rest is proved for each state it can be. -/
theorem Triple.get_bind {next : State → ExceptT Failure (StateM State) Next}
    (h : ∀ current, pre current → Triple (· = current) (next current) post fails) :
    Triple pre (get >>= next) post fails := by
  intro state hpre
  rw [run_bind_of_ok (run_get state)]
  exact h state hpre state rfl

/-- An outcome that is known already: the rest is proved for its result. -/
theorem Triple.ofExcept_bind {outcome : Except Failure Result}
    (hok : ∀ result, outcome = .ok result → Triple pre (next result) post fails)
    (herror : ∀ failure, outcome = .error failure → ∀ state, pre state → fails failure state) :
    Triple pre (MonadExcept.ofExcept outcome >>= next) post fails := by
  cases houtcome : outcome with
  | ok result => exact hok result houtcome
  | error failure => exact herror failure houtcome

/-- **Catching.**  The handler starts in the state the failure left. -/
theorem Triple.tryCatch (hbody : Triple pre program middle fails')
    (hhandler : ∀ failure, Triple (fails' failure) (handler failure) middle fails) :
    Triple pre (tryCatch program handler) middle fails := by
  intro state hpre
  have hout := hbody state hpre
  match hrun : run program state with
  | (.ok result, final) =>
      rw [hrun] at hout
      rw [run_tryCatch_of_ok hrun]
      exact hout
  | (.error failure, final) =>
      rw [hrun] at hout
      rw [run_tryCatch_of_error hrun]
      exact hhandler failure final hout

/-- What holds at the end may be said less precisely. -/
theorem Triple.mono (h : Triple pre program middle fails)
    (hmiddle : ∀ result state, middle result state → middle' result state)
    (hfails : ∀ failure state, fails failure state → fails' failure state) :
    Triple pre program middle' fails' := by
  intro state hstate
  have hout := h state hstate
  match hrun : run program state with
  | (.ok result, final) =>
      rw [hrun] at hout
      exact hmiddle result final hout
  | (.error failure, final) =>
      rw [hrun] at hout
      exact hfails failure final hout

theorem Triple.mono_fails (h : Triple pre program middle fails)
    (hfails : ∀ failure state, fails failure state → fails' failure state) :
    Triple pre program middle fails' :=
  h.mono (fun _ _ hmiddle => hmiddle) hfails

/-- A step that cannot change what holds before it. -/
theorem Triple.within_bind (hfirst : Within relation program)
    (hkept : ∀ state final, pre state → relation state final → pre final)
    (hfails : ∀ failure state, pre state → fails failure state)
    (hnext : ∀ result, Triple pre (next result) post fails) :
    Triple pre (program >>= next) post fails :=
  Triple.bind ((Triple.of_within hfirst hkept).mono_fails hfails) hnext

end Effects
