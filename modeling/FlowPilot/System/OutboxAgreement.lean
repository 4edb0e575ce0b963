import FlowPilot.System.Scripts

/-!
# Agreement of store and outbox

The store refines the life of its executions, and each step of that life
keeps row and events in agreement; so they agree in every reachable state.
-/

namespace FlowPilot

section

variable [Runtime] {env : Environment} {C : WorkerPool → WorkerLabel → Prop} {s : WorkerPool}

theorem ReachableUnder.agreement (h : ReachableUnder env C s) (id : String) :
    Agreement (s.world.store.view id) := by
  induction h generalizing id with
  | start hw =>
      subst hw
      simp [Agreement, Store.view, Store.HasEvent, World.empty, Store.empty]
  | step hreach _ hs ih => exact (ReachableUnder.reached hreach).advances hs |>.agreement ih id

/-- The store and its outbox agree, whatever the workers, the API and the
broker have done: a row is `SUCCEEDED`, or `FAILED`, exactly when the event
of that end is stored, with the row's output or error; and a row that runs
or succeeded has a started event, one that is still `PENDING` has none. -/
theorem outbox_agreement (env : Environment) (s : WorkerPool) (h : ReachableSystem env s)
    (id : String) (row : WorkflowExecutionRow)
    (hrow : s.world.store.executions id = some row) :
    (row.status = .succeeded
      ↔ ∃ message ∈ s.world.store.outbox, message.idempotencyKey = completedKey id)
    ∧ (row.status = .failed
      ↔ ∃ message ∈ s.world.store.outbox, message.idempotencyKey = failedKey id)
    ∧ ¬ ((∃ message ∈ s.world.store.outbox, message.idempotencyKey = completedKey id)
      ∧ ∃ message ∈ s.world.store.outbox, message.idempotencyKey = failedKey id)
    ∧ (row.status = .running ∨ row.status = .succeeded →
      ∃ message ∈ s.world.store.outbox, message.idempotencyKey = startedKey id)
    ∧ (row.status = .pending →
      ∀ message ∈ s.world.store.outbox, message.idempotencyKey ≠ startedKey id)
    ∧ (∀ message ∈ s.world.store.outbox, message.idempotencyKey = completedKey id →
      ∃ workflowId executionId output durationMs,
        message.payload.payload = .completed workflowId executionId output durationMs
        ∧ row.output = some output)
    ∧ ∀ message ∈ s.world.store.outbox, message.idempotencyKey = failedKey id →
      ∃ workflowId executionId error,
        message.payload.payload = .failed workflowId executionId error
        ∧ row.error = some error := by
  have hagree := ReachableUnder.agreement h id
  simp only [Agreement, Store.view, hrow] at hagree
  have hstored : ∀ kind : Lifecycle, (∃ p, s.world.store.HasEvent (kind.key id) p)
      ↔ ∃ message ∈ s.world.store.outbox, message.idempotencyKey = kind.key id := by
    intro kind
    constructor
    · rintro ⟨p, message, hmem, hkey, -⟩
      exact ⟨message, hmem, hkey⟩
    · rintro ⟨message, hmem, hkey⟩
      exact ⟨_, message, hmem, hkey, rfl⟩
  have hcompleted := hagree.completed_iff.trans (hstored .completed)
  have hfailed := hagree.failed_iff.trans (hstored .failed)
  refine ⟨hcompleted, hfailed, ?_, fun hrun => (hstored .started).mp (hagree.started hrun), ?_,
    ?_, ?_⟩
  · rintro ⟨hc, hf⟩
    cases (hcompleted.mpr hc).symm.trans (hfailed.mpr hf)
  · intro hpending message hmem hkey
    exact hagree.not_started hpending _ ⟨message, hmem, hkey, rfl⟩
  · intro message hmem hkey
    exact hagree.completed_output _ ⟨message, hmem, hkey, rfl⟩
  · intro message hmem hkey
    exact hagree.failed_error _ ⟨message, hmem, hkey, rfl⟩

end

/-- The theorem after a delivery that has completed its execution. -/
theorem outbox_agreement_succeeded :
    ∃ (_ : Runtime) (s : WorkerPool) (row : WorkflowExecutionRow),
      ReachableSystem (scriptEnvironment (newRow defaultWorkflowDefinition)) s
      ∧ s.world.store.executions "execution" = some row ∧ row.status = .succeeded
      ∧ ∃ message ∈ s.world.store.outbox, message.idempotencyKey = completedKey "execution" := by
  let _ : Runtime := .sample false
  obtain ⟨s, row, hs, hrow, hstatus⟩ := exists_succeeded
  obtain ⟨hcompleted, -⟩ :=
    outbox_agreement (scriptEnvironment _) s hs "execution" row hrow
  exact ⟨_, s, row, hs, hrow, hstatus, hcompleted.mp hstatus⟩

end FlowPilot
