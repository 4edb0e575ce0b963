import FlowPilot.Worker.Store

/-!
# The life of one execution

The abstract model: one execution as its row and the lifecycle events that
are stored for it. It has five steps, and both sides of the outbox are kept
in agreement by them (`Agreement`): an execution has ended if and only if
the event of that end exists, with the same output or error.

`RowLe` is what the steps leave of a row: a later row has the same version
and input, has not gone back to `PENDING`, and if it has ended, it is
unchanged.
-/

namespace FlowPilot

/-! ## Views and steps -/

/-- The three events of an execution as a whole. -/
inductive Lifecycle where
  | started
  | completed
  | failed
deriving DecidableEq

/-- One execution, as the store shows it. -/
structure ExecutionView where
  row : Option WorkflowExecutionRow
  event : Lifecycle → LifecyclePayload → Prop

namespace ExecutionView

/-- An event is added unless one of its kind is stored already. -/
def record (v : ExecutionView) (kind : Lifecycle) (payload : LifecyclePayload) :
    ExecutionView where
  row := v.row
  event kind' payload' := v.event kind' payload'
    ∨ (kind' = kind ∧ payload' = payload ∧ ∀ p, ¬ v.event kind p)

/-- The row is updated and the event of the update recorded. -/
def move (v : ExecutionView) (row : WorkflowExecutionRow) (data : ExecutionUpdate)
    (kind : Lifecycle) (payload : LifecyclePayload) : ExecutionView :=
  { v.record kind payload with row := some (data.apply row) }

/-- The event carries what the row was updated with. -/
inductive Announces : ExecutionUpdate → Lifecycle → LifecyclePayload → Prop
  | started (startedAt : Int) (workflowId executionId : String) :
      Announces (.running startedAt) .started (.started workflowId executionId)
  | completed (output : Record) (completedAt : Int) (workflowId executionId : String)
      (durationMs : Int) :
      Announces (.succeeded output completedAt) .completed
        (.completed workflowId executionId output durationMs)
  | failed (error : FlowPilotExecutionError) (completedAt : Int)
      (workflowId executionId : String) :
      Announces (.failed error completedAt) .failed (.failed workflowId executionId error)

/-- The statuses an update starts from. -/
def Starts : ExecutionUpdate → ExecutionStatus → Prop
  | .running _, status => status = .pending
  | .succeeded _ _, status => status = .running
  | .failed _ _, status => status = .pending ∨ status = .running

end ExecutionView

/-- A row as `requestExecution` of the API creates it. -/
def WorkflowExecutionRow.IsNew (row : WorkflowExecutionRow) : Prop :=
  row.status = .pending ∧ row.output = none ∧ row.error = none ∧ row.startedAt = none
    ∧ row.completedAt = none

/-- The steps of an execution. -/
inductive LifecycleStep : ExecutionView → ExecutionView → Prop
  | create {v : ExecutionView} {row : WorkflowExecutionRow} :
      v.row = none → row.IsNew → LifecycleStep v { v with row := some row }
  | move {v : ExecutionView} {row : WorkflowExecutionRow} {data : ExecutionUpdate}
      {kind : Lifecycle} {payload : LifecyclePayload} :
      v.row = some row → ExecutionView.Starts data row.status →
      ExecutionView.Announces data kind payload → LifecycleStep v (v.move row data kind payload)
  /-- The started event of an execution that is no longer pending. -/
  | resume {v : ExecutionView} {row : WorkflowExecutionRow} (workflowId executionId : String) :
      v.row = some row → row.status ≠ .pending →
      LifecycleStep v (v.record .started (.started workflowId executionId))

/-! ## Recorded events -/

namespace ExecutionView

variable {v : ExecutionView} {kind kind' : Lifecycle} {payload p : LifecyclePayload}

theorem record_event_of_ne (h : kind' ≠ kind) :
    (v.record kind payload).event kind' p ↔ v.event kind' p := by
  simp [record, h]

theorem record_event_of_new (h : ∀ q, ¬ v.event kind q) :
    (v.record kind payload).event kind p ↔ p = payload := by
  simp [record, h]

/-- After recording, an event of the kind is stored, an old one or the new. -/
theorem exists_record_event : ∃ p, (v.record kind payload).event kind p := by
  by_cases h : ∃ q, v.event kind q
  · obtain ⟨q, hq⟩ := h
    exact ⟨q, Or.inl hq⟩
  · exact ⟨payload, (record_event_of_new (not_exists.mp h)).mpr rfl⟩

end ExecutionView

/-! ## Agreement -/

open ExecutionView

/-- A row and the events stored for it agree. -/
structure RowAgreement (row : WorkflowExecutionRow)
    (event : Lifecycle → LifecyclePayload → Prop) : Prop where
  completed_iff : row.status = .succeeded ↔ ∃ p, event .completed p
  failed_iff : row.status = .failed ↔ ∃ p, event .failed p
  started : row.status = .running ∨ row.status = .succeeded → ∃ p, event .started p
  not_started : row.status = .pending → ∀ p, ¬ event .started p
  completed_output : ∀ p, event .completed p → ∃ workflowId executionId output durationMs,
    p = .completed workflowId executionId output durationMs ∧ row.output = some output
  failed_error : ∀ p, event .failed p → ∃ workflowId executionId error,
    p = .failed workflowId executionId error ∧ row.error = some error
  not_cancelled : row.status ≠ .cancelled

/-- An execution and its events agree; without a row there are no events. -/
def Agreement (v : ExecutionView) : Prop :=
  match v.row with
  | none => ∀ kind p, ¬ v.event kind p
  | some row => RowAgreement row v.event

theorem RowAgreement.not_completed {row : WorkflowExecutionRow}
    {event : Lifecycle → LifecyclePayload → Prop} (ha : RowAgreement row event)
    (h : row.status ≠ .succeeded) (p : LifecyclePayload) : ¬ event .completed p :=
  fun hp => h (ha.completed_iff.mpr ⟨p, hp⟩)

theorem RowAgreement.not_failed {row : WorkflowExecutionRow}
    {event : Lifecycle → LifecyclePayload → Prop} (ha : RowAgreement row event)
    (h : row.status ≠ .failed) (p : LifecyclePayload) : ¬ event .failed p :=
  fun hp => h (ha.failed_iff.mpr ⟨p, hp⟩)

/-- A new row agrees with no events. -/
theorem WorkflowExecutionRow.IsNew.agreement {row : WorkflowExecutionRow} (hnew : row.IsNew)
    {event : Lifecycle → LifecyclePayload → Prop} (hnone : ∀ kind p, ¬ event kind p) :
    RowAgreement row event where
  completed_iff := by simp [hnew.1, hnone]
  failed_iff := by simp [hnew.1, hnone]
  started := by simp [hnew.1]
  not_started _ p := hnone .started p
  completed_output p hp := absurd hp (hnone .completed p)
  failed_error p hp := absurd hp (hnone .failed p)
  not_cancelled := by simp [hnew.1]

/-- Moving a row and recording the event of the move keeps them in
agreement: before the move there is no event of its kind. -/
theorem RowAgreement.move {v : ExecutionView} {row : WorkflowExecutionRow}
    {data : ExecutionUpdate} {kind : Lifecycle} {payload : LifecyclePayload}
    (ha : RowAgreement row v.event) (hstarts : Starts data row.status)
    (hannounces : Announces data kind payload) :
    RowAgreement (data.apply row) (v.record kind payload).event := by
  cases hannounces with
  | started startedAt workflowId executionId =>
      have hstatus : row.status = .pending := hstarts
      have hcompleted := ha.not_completed (by simp [hstatus])
      have hfailed := ha.not_failed (by simp [hstatus])
      exact
        { completed_iff := by simp [ExecutionUpdate.apply, record_event_of_ne, hcompleted]
          failed_iff := by simp [ExecutionUpdate.apply, record_event_of_ne, hfailed]
          started := fun _ => exists_record_event
          not_started := by simp [ExecutionUpdate.apply]
          completed_output := by simp [record_event_of_ne, hcompleted]
          failed_error := by simp [record_event_of_ne, hfailed]
          not_cancelled := by simp [ExecutionUpdate.apply] }
  | completed output completedAt workflowId executionId durationMs =>
      have hstatus : row.status = .running := hstarts
      have hcompleted := ha.not_completed (by simp [hstatus])
      have hfailed := ha.not_failed (by simp [hstatus])
      have hrecorded : ∀ p, (v.record .completed
          (.completed workflowId executionId output durationMs)).event .completed p
          ↔ p = .completed workflowId executionId output durationMs :=
        fun p => record_event_of_new hcompleted
      exact
        { completed_iff := by simp [ExecutionUpdate.apply, hrecorded]
          failed_iff := by simp [ExecutionUpdate.apply, record_event_of_ne, hfailed]
          started := fun _ => by simpa [record_event_of_ne] using ha.started (Or.inl hstatus)
          not_started := by simp [ExecutionUpdate.apply]
          completed_output := by simp [ExecutionUpdate.apply, hrecorded]
          failed_error := by simp [record_event_of_ne, hfailed]
          not_cancelled := by simp [ExecutionUpdate.apply] }
  | failed error completedAt workflowId executionId =>
      have hstatus : row.status = .pending ∨ row.status = .running := hstarts
      have hcompleted := ha.not_completed (by rcases hstatus with h | h <;> simp [h])
      have hfailed := ha.not_failed (by rcases hstatus with h | h <;> simp [h])
      have hrecorded : ∀ p, (v.record .failed (.failed workflowId executionId error)).event
          .failed p ↔ p = .failed workflowId executionId error :=
        fun p => record_event_of_new hfailed
      exact
        { completed_iff := by simp [ExecutionUpdate.apply, record_event_of_ne, hcompleted]
          failed_iff := by simp [ExecutionUpdate.apply, hrecorded]
          started := by simp [ExecutionUpdate.apply]
          not_started := by simp [ExecutionUpdate.apply]
          completed_output := by simp [record_event_of_ne, hcompleted]
          failed_error := by simp [ExecutionUpdate.apply, hrecorded]
          not_cancelled := by simp [ExecutionUpdate.apply] }

/-- So does recording a started event for a row that is no longer pending. -/
theorem RowAgreement.resume {v : ExecutionView} {row : WorkflowExecutionRow}
    {payload : LifecyclePayload} (ha : RowAgreement row v.event)
    (hstarted : row.status ≠ .pending) :
    RowAgreement row (v.record .started payload).event where
  completed_iff := by simpa [record_event_of_ne] using ha.completed_iff
  failed_iff := by simpa [record_event_of_ne] using ha.failed_iff
  started _ := exists_record_event
  not_started h := absurd h hstarted
  completed_output p hp := ha.completed_output p ((record_event_of_ne (by simp)).mp hp)
  failed_error p hp := ha.failed_error p ((record_event_of_ne (by simp)).mp hp)
  not_cancelled := ha.not_cancelled

/-- The step lemma: every step keeps the agreement. -/
theorem Agreement.step {v v' : ExecutionView} (ha : Agreement v) (hs : LifecycleStep v v') :
    Agreement v' := by
  cases hs with
  | @create row hnone hnew =>
      simp only [Agreement, hnone] at ha
      exact hnew.agreement ha
  | @move row data kind payload hrow hstarts hannounces =>
      simp only [Agreement, hrow] at ha
      exact ha.move hstarts hannounces
  | @resume row workflowId executionId hrow hstarted =>
      simp only [Agreement, hrow] at ha
      simp only [Agreement, ExecutionView.record, hrow]
      exact ha.resume hstarted

/-! ## Later rows -/

/-- What the steps of an execution leave of its row. -/
inductive RowLe : Option WorkflowExecutionRow → Option WorkflowExecutionRow → Prop
  | absent (later? : Option WorkflowExecutionRow) : RowLe none later?
  | later {row later : WorkflowExecutionRow} :
      later.workflowVersion = row.workflowVersion → later.input = row.input →
      (row.status ≠ .pending → later.status ≠ .pending) →
      (isTerminalExecutionStatus row.status = true → later = row) →
      RowLe (some row) (some later)

theorem RowLe.refl : ∀ row, RowLe row row
  | none => .absent none
  | some _ => .later rfl rfl id fun _ => rfl

theorem RowLe.trans {a b c : Option WorkflowExecutionRow} (hab : RowLe a b) (hbc : RowLe b c) :
    RowLe a c := by
  cases hab with
  | absent => exact .absent c
  | later hversion hinput hstarted hended =>
      cases hbc with
      | later hversion' hinput' hstarted' hended' =>
          refine .later (hversion'.trans hversion) (hinput'.trans hinput)
            (fun h => hstarted' (hstarted h)) fun h => ?_
          obtain rfl := hended h
          exact hended' h

theorem RowLe.exists_later {row : WorkflowExecutionRow} {later? : Option WorkflowExecutionRow}
    (h : RowLe (some row) later?) : ∃ later, later? = some later := by
  cases h with
  | later => exact ⟨_, rfl⟩

/-- No update starts from an ended execution. -/
theorem not_terminal_of_starts {status : ExecutionStatus} {data : ExecutionUpdate}
    (hstarts : Starts data status) : isTerminalExecutionStatus status = false := by
  cases data with
  | running startedAt =>
      obtain rfl : status = .pending := hstarts
      rfl
  | succeeded output completedAt =>
      obtain rfl : status = .running := hstarts
      rfl
  | failed error completedAt =>
      rcases hstarts with rfl | rfl
      · rfl
      · rfl

/-- A moved row is a later row. -/
theorem rowLe_apply {row : WorkflowExecutionRow} {data : ExecutionUpdate}
    (hstarts : Starts data row.status) :
    RowLe (some row) (some (data.apply row)) := by
  have hterminal := not_terminal_of_starts hstarts
  refine .later ?_ ?_ (fun _ => ?_) fun h => ?_
  · cases data <;> rfl
  · cases data <;> rfl
  · cases data <;> simp [ExecutionUpdate.apply]
  · rw [hterminal] at h
    cases h

/-- Every step leaves a later row. -/
theorem LifecycleStep.rowLe {v v' : ExecutionView} (hs : LifecycleStep v v') :
    RowLe v.row v'.row := by
  cases hs with
  | create hnone _ =>
      rw [hnone]
      exact .absent _
  | move hrow hstarts _ =>
      rw [hrow]
      exact rowLe_apply hstarts
  | resume _ _ _ _ => exact .refl _

end FlowPilot
