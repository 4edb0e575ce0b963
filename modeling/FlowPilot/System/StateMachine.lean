import FlowPilot.System.Scripts

/-!
# The state machine of an execution

The statuses an execution goes through. `RowShape` says which columns of its
row are filled in each status; with it the steps of an execution
(`LifecycleStep`) move the status along `StatusStep` only, set `startedAt`
once, and leave the row of an ended execution alone.
-/

namespace FlowPilot

open ExecutionView

/-! ## Statuses and columns -/

/-- The changes of status. -/
inductive StatusStep : ExecutionStatus → ExecutionStatus → Prop
  | start : StatusStep .pending .running
  | succeed : StatusStep .running .succeeded
  | failRunning : StatusStep .running .failed
  | failPending : StatusStep .pending .failed

/-- Which columns of a row are filled, by its status. -/
structure RowShape (row : WorkflowExecutionRow) : Prop where
  not_started : row.status = .pending → row.startedAt = none
  output_iff : row.output.isSome ↔ row.status = .succeeded
  error_iff : row.error.isSome ↔ row.status = .failed

theorem WorkflowExecutionRow.IsNew.shape {row : WorkflowExecutionRow} (hnew : row.IsNew) :
    RowShape row where
  not_started _ := hnew.2.2.2.1
  output_iff := by simp [hnew.1, hnew.2.1]
  error_iff := by simp [hnew.1, hnew.2.2.1]

theorem statusStep_apply {data : ExecutionUpdate} {row : WorkflowExecutionRow}
    (hstarts : Starts data row.status) : StatusStep row.status (data.apply row).status := by
  cases data with
  | running startedAt =>
      rw [show row.status = .pending from hstarts]
      exact .start
  | succeeded output completedAt =>
      rw [show row.status = .running from hstarts]
      exact .succeed
  | failed error completedAt =>
      rcases hstarts with h | h
      · rw [h]
        exact .failPending
      · rw [h]
        exact .failRunning

/-- An update fills the columns of the status it sets: before it, output and
error are empty. -/
theorem RowShape.apply {data : ExecutionUpdate} {row : WorkflowExecutionRow}
    (hshape : RowShape row) (hstarts : Starts data row.status) : RowShape (data.apply row) := by
  have hended := not_terminal_of_starts hstarts
  have houtput : row.output = none := by
    rw [← Option.not_isSome_iff_eq_none, hshape.output_iff]
    intro h
    rw [h] at hended
    cases hended
  have herror : row.error = none := by
    rw [← Option.not_isSome_iff_eq_none, hshape.error_iff]
    intro h
    rw [h] at hended
    cases hended
  cases data with
  | running startedAt =>
      exact
        { not_started := by simp [ExecutionUpdate.apply]
          output_iff := by simp [ExecutionUpdate.apply, houtput]
          error_iff := by simp [ExecutionUpdate.apply, herror] }
  | succeeded output completedAt =>
      exact
        { not_started := by simp [ExecutionUpdate.apply]
          output_iff := by simp [ExecutionUpdate.apply]
          error_iff := by simp [ExecutionUpdate.apply, herror] }
  | failed error completedAt =>
      exact
        { not_started := by simp [ExecutionUpdate.apply]
          output_iff := by simp [ExecutionUpdate.apply, houtput]
          error_iff := by simp [ExecutionUpdate.apply] }

/-- `startedAt` is set by the update of a row that has none. -/
theorem RowShape.startedAt_apply {data : ExecutionUpdate} {row : WorkflowExecutionRow}
    (hshape : RowShape row) (hstarts : Starts data row.status) {startedAt : Int}
    (h : row.startedAt = some startedAt) : (data.apply row).startedAt = some startedAt := by
  cases data with
  | running now =>
      rw [hshape.not_started hstarts] at h
      cases h
  | succeeded output completedAt => exact h
  | failed error completedAt => exact h

/-! ## Steps of an execution -/

/-- The rows of all views are of this shape. -/
def Shaped (v : ExecutionView) : Prop := ∀ row, v.row = some row → RowShape row

theorem Shaped.step {v v' : ExecutionView} (h : Shaped v) (hs : LifecycleStep v v') :
    Shaped v' := by
  intro row hrow
  cases hs with
  | create _ hnew =>
      obtain rfl := Option.some.inj hrow
      exact hnew.shape
  | move hrow' hstarts _ =>
      obtain rfl := Option.some.inj hrow
      exact (h _ hrow').apply hstarts
  | resume _ _ hrow' _ =>
      obtain rfl := Option.some.inj (hrow.symm.trans hrow')
      exact h _ hrow'

/-- What a step does to a row: nothing, or it updates it. -/
theorem LifecycleStep.row_cases {v v' : ExecutionView} (hs : LifecycleStep v v')
    {row : WorkflowExecutionRow} (hrow : v.row = some row) :
    v'.row = some row
    ∨ ∃ data : ExecutionUpdate, Starts data row.status ∧ v'.row = some (data.apply row) := by
  cases hs with
  | create hnone _ => cases hnone.symm.trans hrow
  | move hrow' hstarts _ =>
      obtain rfl := Option.some.inj (hrow.symm.trans hrow')
      exact Or.inr ⟨_, hstarts, rfl⟩
  | resume _ _ _ _ => exact Or.inl hrow

theorem Store.Advances.row_cases {s s' : Store} (h : s.Advances s') {id : String}
    {row : WorkflowExecutionRow} (hrow : s.executions id = some row) :
    s'.executions id = some row
    ∨ ∃ data : ExecutionUpdate, Starts data row.status
      ∧ s'.executions id = some (data.apply row) := by
  rcases h id with heq | hstep
  · exact Or.inl ((congrArg ExecutionView.row heq).trans hrow)
  · exact hstep.row_cases hrow

/-- What a run leaves of a row: the row of an ended execution, and the time
of its start. -/
structure KeptRow (row later : WorkflowExecutionRow) : Prop where
  ended : isTerminalExecutionStatus row.status = true → later = row
  startedAt : ∀ startedAt, row.startedAt = some startedAt → later.startedAt = some startedAt

theorem KeptRow.trans {a b c : WorkflowExecutionRow} (hab : KeptRow a b) (hbc : KeptRow b c) :
    KeptRow a c where
  ended h := by
    obtain rfl := hab.ended h
    exact hbc.ended h
  startedAt t h := hbc.startedAt t (hab.startedAt t h)

/-! ## Runs of the system -/

section

variable [Runtime] {env : Environment} {C : WorkerPool → WorkerLabel → Prop}
  {s s' : WorkerPool}

theorem ReachableUnder.shaped (h : ReachableUnder env C s) (id : String) :
    Shaped (s.world.store.view id) := by
  induction h with
  | start hw =>
      subst hw
      intro row hrow
      cases hrow
  | step hreach _ hs ih =>
      rcases (ReachableUnder.reached hreach).advances hs id with heq | hstep
      · rw [heq]
        exact ih
      · exact ih.step hstep

/-- A step from a reachable state updates a row, or leaves it alone. -/
theorem ReachableUnder.row_cases {l : WorkerLabel} (h : ReachableUnder env C s)
    (hs : Pool.Step (workerSystem env) s l s') {id : String} {row : WorkflowExecutionRow}
    (hrow : s.world.store.executions id = some row) :
    s'.world.store.executions id = some row
    ∨ ∃ data : ExecutionUpdate, Starts data row.status
      ∧ s'.world.store.executions id = some (data.apply row) :=
  ((ReachableUnder.reached h).advances hs).row_cases hrow

theorem ReachableUnder.keptRow {labels : List WorkerLabel} (h : ReachableUnder env C s)
    (hrun : Pool.Run (workerSystem env) C s labels s') {id : String} {row : WorkflowExecutionRow}
    (hrow : s.world.store.executions id = some row) :
    ∃ later, s'.world.store.executions id = some later ∧ KeptRow row later := by
  induction hrun with
  | refl => exact ⟨row, hrow, fun _ => rfl, fun _ h => h⟩
  | step hrun _ hs ih =>
      obtain ⟨later, hlater, hkept⟩ := ih
      have hreach := hrun.reachable h
      have hshape := ReachableUnder.shaped hreach id later hlater
      rcases ReachableUnder.row_cases hreach hs hlater with hsame | ⟨data, hstarts, hmoved⟩
      · exact ⟨later, hsame, hkept⟩
      · refine ⟨_, hmoved, hkept.trans ⟨fun hended => ?_, fun _ => hshape.startedAt_apply hstarts⟩⟩
        rw [not_terminal_of_starts hstarts] at hended
        cases hended

/-- The state machine of an execution, in every run of workers, API and
broker. A step changes a status along `StatusStep` or not at all. The row of
an execution that has ended is never changed again, and `startedAt` is never
changed once it is set. A succeeded row has an output and no error, a failed
row an error and no output. -/
theorem execution_state_machine (env : Environment) (s s' : WorkerPool)
    (labels : List WorkerLabel) (h : ReachableSystem env s)
    (hrun : Pool.Run (workerSystem env) (fun _ _ => True) s labels s') (id : String)
    (row : WorkflowExecutionRow) (hrow : s.world.store.executions id = some row) :
    (∀ l next, Pool.Step (workerSystem env) s l next →
      ∃ row', next.world.store.executions id = some row'
        ∧ (row'.status = row.status ∨ StatusStep row.status row'.status))
    ∧ (∃ later, s'.world.store.executions id = some later
      ∧ (row.status = .succeeded ∨ row.status = .failed → later = row)
      ∧ ∀ startedAt, row.startedAt = some startedAt → later.startedAt = some startedAt)
    ∧ (row.status = .succeeded → row.output.isSome ∧ row.error = none)
    ∧ (row.status = .failed → row.error.isSome ∧ row.output = none) := by
  have hshape := ReachableUnder.shaped h id row hrow
  refine ⟨fun l next hs => ?_, ?_, fun hstatus => ?_, fun hstatus => ?_⟩
  · rcases ReachableUnder.row_cases h hs hrow with hsame | ⟨data, hstarts, hmoved⟩
    · exact ⟨row, hsame, Or.inl rfl⟩
    · exact ⟨_, hmoved, Or.inr (statusStep_apply hstarts)⟩
  · obtain ⟨later, hlater, hkept⟩ := ReachableUnder.keptRow h hrun hrow
    refine ⟨later, hlater, fun hstatus => hkept.ended ?_, hkept.startedAt⟩
    rcases hstatus with hstatus | hstatus <;> rw [hstatus] <;> rfl
  · refine ⟨hshape.output_iff.mpr hstatus, ?_⟩
    rw [← Option.not_isSome_iff_eq_none, hshape.error_iff, hstatus]
    simp
  · refine ⟨hshape.error_iff.mpr hstatus, ?_⟩
    rw [← Option.not_isSome_iff_eq_none, hshape.output_iff, hstatus]
    simp

end

/-! ## A run to the end -/

/-- The worlds before and after the call number `n` of a scripted run, and at
the end of the run. -/
def scriptAround (n : Nat) (p : Worker Unit) (w : World) : Option (World × World × World) :=
  (script (fun _ => true) n 0 p w).bind fun (_, q, w₁) =>
    match q with
    | .call op k => (scripted (fun _ => true) n op w₁).bind fun (reply, w₂) =>
        (script (fun _ => true) 100 (n + 1) (k reply.result) w₂).map fun (_, _, w₃) => (w₁, w₂, w₃)
    | _ => none

/-- What `scriptAround` computes is a step of a reachable state, and a run
after it. -/
theorem exists_step_of_scriptAround [Runtime] (definition : Json) {n : Nat} {w₁ w₂ w₃ : World}
    (h : scriptAround n (handleDelivery (newMessage definition))
      { World.requesting definition with commands := [] } = some (w₁, w₂, w₃)) :
    ∃ (s s₁ s₂ : WorkerPool) (l : WorkerLabel) (labels : List WorkerLabel),
      ReachableSystem (scriptEnvironment (newRow definition)) s
      ∧ Pool.Step (workerSystem (scriptEnvironment (newRow definition))) s l s₁
      ∧ Pool.Run (workerSystem (scriptEnvironment (newRow definition))) (fun _ _ => True) s₁
        labels s₂
      ∧ s.world = w₁ ∧ s₁.world = w₂ ∧ s₂.world = w₃ := by
  obtain ⟨⟨events, q, w⟩, hfirst, h⟩ := Option.bind_eq_some_iff.mp h
  cases q with
  | pure a => cases h
  | throw e => cases h
  | call op k =>
    obtain ⟨⟨reply, w'⟩, hcall, h⟩ := Option.bind_eq_some_iff.mp h
    obtain ⟨⟨later, q', w''⟩, hlast, heq⟩ := Option.map_eq_some_iff.mp h
    cases heq
    have hbefore := reachable_delivery (C := fun _ _ => True) (k := 0)
      (reachable_requesting definition rfl fun _ => trivial) rfl (fun _ => trivial)
      (fun _ _ => trivial) (fun _ _ _ _ => trivial) rfl
      (script_sound (newRow definition) hfirst)
    obtain ⟨hafter, hreplays⟩ := script_sound (newRow definition) hlast
    exact ⟨_, _, _, _, _, hbefore,
      .act (Function.update_self ..) (scripted_sound _ _ _ _ _ hcall),
      Pool.Run.after hafter (Function.update_self ..) hreplays fun _ _ _ _ => trivial, rfl, rfl,
      rfl⟩

/-- The theorem before and after the call that completes an execution: the
step is one of the state machine and keeps the start of the execution, and
what the delivery still does leaves the row as it is. -/
theorem execution_state_machine_succeeded :
    ∃ (_ : Runtime) (s s₁ s₂ : WorkerPool) (l : WorkerLabel) (labels : List WorkerLabel)
      (row row₁ : WorkflowExecutionRow) (startedAt : Int),
      ReachableSystem (scriptEnvironment (newRow defaultWorkflowDefinition)) s
      ∧ Pool.Step (workerSystem (scriptEnvironment (newRow defaultWorkflowDefinition))) s l s₁
      ∧ Pool.Run (workerSystem (scriptEnvironment (newRow defaultWorkflowDefinition)))
        (fun _ _ => True) s₁ labels s₂
      ∧ s.world.store.executions "execution" = some row ∧ row.status = .running
      ∧ s₁.world.store.executions "execution" = some row₁ ∧ row₁.status = .succeeded
      ∧ StatusStep row.status row₁.status
      ∧ row.startedAt = some startedAt ∧ row₁.startedAt = some startedAt
      ∧ row₁.output.isSome ∧ row₁.error = none
      ∧ (∃ message ∈ s₁.world.store.outbox, message.status = .pending)
      ∧ (∀ message ∈ s₂.world.store.outbox, message.status = .published)
      ∧ s₂.world.store.executions "execution" = some row₁ := by
  let _ : Runtime := .sample false
  obtain ⟨⟨w₁, w₂, w₃⟩, haround, hcheck⟩ := (Option.any_eq_true _ _).mp
    (show (scriptAround 27 (handleDelivery (newMessage defaultWorkflowDefinition))
      { World.requesting defaultWorkflowDefinition with commands := [] }).any (fun (w₁, w₂, w₃) =>
        (w₁.store.executions "execution").any (fun row =>
          row.status = .running && row.startedAt.isSome)
        && w₂.hasStatus "execution" .succeeded
        && w₂.store.outbox.any (·.status = .pending)
        && w₃.store.outbox.all (·.status = .published)) = true by decide +kernel)
  simp only [Bool.and_eq_true, List.any_eq_true, List.all_eq_true, decide_eq_true_eq] at hcheck
  obtain ⟨⟨⟨hrunning, hsucceeded⟩, hpending⟩, hpublished⟩ := hcheck
  obtain ⟨s, s₁, s₂, l, labels, hs, hstep, hrun, rfl, rfl, rfl⟩ :=
    exists_step_of_scriptAround _ haround
  obtain ⟨row, hrow, hstatus⟩ := (Option.any_eq_true _ _).mp hrunning
  simp only [Bool.and_eq_true, decide_eq_true_eq] at hstatus
  obtain ⟨startedAt, hstarted⟩ := Option.isSome_iff_exists.mp hstatus.2
  obtain ⟨row₁, hrow₁, hstatus₁⟩ := World.hasStatus_iff.mp hsucceeded
  -- once from before the call, once from after it
  have hone : Pool.Run (workerSystem (scriptEnvironment (newRow defaultWorkflowDefinition)))
      (fun _ _ => True) s ([] ++ [l]) s₁ := .step .refl trivial hstep
  obtain ⟨hsteps, hkept, -, -⟩ :=
    execution_state_machine _ s s₁ _ hs hone "execution" row hrow
  obtain ⟨-, hended, hcolumns, -⟩ := execution_state_machine _ s₁ s₂ labels
    (hone.reachable hs) hrun "execution" row₁ hrow₁
  obtain ⟨row', hrow', hmove⟩ := hsteps l s₁ hstep
  obtain rfl := Option.some.inj (hrow'.symm.trans hrow₁)
  have hmove : StatusStep row.status row'.status := hmove.resolve_left fun hsame => by
    rw [hstatus.1, hstatus₁] at hsame
    cases hsame
  obtain ⟨later, hlater, -, hstart⟩ := hkept
  obtain rfl := Option.some.inj (hlater.symm.trans hrow₁)
  obtain ⟨last, hlast, hsame, -⟩ := hended
  obtain rfl := hsame (Or.inl hstatus₁)
  exact ⟨_, s, s₁, s₂, l, labels, row, _, startedAt, hs, hstep, hrun, hrow, hstatus.1, hrow₁,
    hstatus₁, hmove, hstarted, hstart startedAt hstarted, (hcolumns hstatus₁).1,
    (hcolumns hstatus₁).2, hpending, hpublished, hlast⟩

end FlowPilot
