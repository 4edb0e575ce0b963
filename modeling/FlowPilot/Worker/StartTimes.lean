import FlowPilot.Worker.NodeProgress

/-!
# The start time a delivery works with

A delivery takes the time it reports as the start of its execution from the
row it read first, or else from its own clock; and it keeps that time to the
completion, whatever the transaction that starts the execution answered. So
there are three ways in which it knows the start (`KnowsStart`): it has read
the time, it has written it, or it wanted to write it and came too late
(`LostStartAt`).
-/

namespace FlowPilot

open Prog hiding pure throw bind tryCatch

/-- Another delivery had started the execution when this one wanted to, at
`startedAt`. -/
def LostStartAt (x : String) (startedAt : Int) (h : WorkerHistory) : Prop :=
  ∃ (t : StatusTransition) (r : TransitionResult), Saw h (.transaction t) r ∧ t.id = x
    ∧ t.data = .running startedAt ∧ r.count = 0

/-- What the delivery takes for the start of the execution. -/
inductive KnowsStart (x : String) (h : WorkerHistory) : Int → Prop
  /-- The execution was found running; `now` is the delivery's own clock. -/
  | read {row : WorkflowExecution} (now : Int) : Saw h (.findExecution x) (some row) →
      row.status = .running → KnowsStart x h (row.startedAt.getD now)
  | started {t : StatusTransition} {r : TransitionResult} {startedAt : Int} :
      Saw h (.transaction t) r → t.id = x → t.data = .running startedAt → r.count ≠ 0 →
      KnowsStart x h startedAt
  | lost {startedAt : Int} : LostStartAt x startedAt h → KnowsStart x h startedAt

theorem KnowsStart.mono {x : String} {h h' : WorkerHistory} {startedAt : Int}
    (hk : KnowsStart x h startedAt) (hle : h <+: h') : KnowsStart x h' startedAt := by
  cases hk with
  | read now hsaw hstatus => exact .read now (hsaw.mono hle) hstatus
  | started hsaw hid hdata hcount => exact .started (hsaw.mono hle) hid hdata hcount
  | lost hlost =>
      obtain ⟨t, r, hsaw, ht⟩ := hlost
      exact .lost ⟨t, r, hsaw.mono hle, ht⟩

/-- A transaction that completes an execution stores the duration since the
start the delivery knows. -/
def KnownStartOp (x : String) (h : WorkerHistory) : WorkerOp → Prop
  | .db (.transaction t) => ∀ output completedAt, t.data = .succeeded output completedAt →
      ∃ workflowId startedAt, t.message.payload
        = .completed workflowId x output (completedAt - startedAt) ∧ KnowsStart x h startedAt
  | _ => True

theorem LeavesNodes.knownStartOp {x : String} {h : WorkerHistory} {op : WorkerOp}
    (hop : LeavesNodes op) : KnownStartOp x h op := by
  cases op with
  | db c =>
      cases c with
      | transaction t => exact fun output completedAt ht => absurd ht (hop output completedAt)
      | _ => trivial
  | _ => trivial

theorem NodeOp.knownStartOp {x : String} {h : WorkerHistory} {op : WorkerOp} (hop : NodeOp op) :
    KnownStartOp x h op := by
  rcases hop with hop | ⟨node, context, rfl⟩
  · cases op with
    | db c =>
        cases c with
        | transaction t => exact hop.elim
        | _ => trivial
    | _ => trivial
  · trivial

/-- An execution that is neither pending nor ended is running. -/
theorem running_of_open {status : ExecutionStatus}
    (hopen : isTerminalExecutionStatus status = false) (hstatus : status ≠ .pending) :
    status = .running := by
  cases status with
  | pending => exact absurd rfl hstatus
  | running => rfl
  | _ => cases hopen

/-- A part that completes nothing. -/
theorem knownStart_of_leaves {α : Type} {x : String} {p : Worker α} (hp : Issues LeavesNodes p) :
    Safe (KnownStartOp x) p :=
  safe_of_spec hp fun _ _ hop => hop.knownStartOp

/-! ## The handler -/

section

variable (m : WorkflowExecutionRequestedMessage)

/-- Whichever way the execution was entered, the delivery knows its start. -/
theorem Entered.knowsStart {m : WorkflowExecutionRequestedMessage}
    {existingExecution execution : WorkflowExecution} {now : Int} {h events : WorkerHistory}
    (hread : Saw h (.findExecution m.executionId) (some existingExecution))
    (hopen : isTerminalExecutionStatus existingExecution.status = false)
    (hentered : Entered m existingExecution (existingExecution.startedAt.getD now) events
      execution) :
    KnowsStart m.executionId (h ++ events) (existingExecution.startedAt.getD now) := by
  cases hentered with
  | running hstatus =>
      exact .read now (hread.mono (List.prefix_append _ _)) (running_of_open hopen hstatus)
  | started hsaw hcount => exact .started (List.mem_append_right _ hsaw) rfl rfl hcount
  | lost hsaw hcount _ => exact .lost ⟨_, _, List.mem_append_right _ hsaw, rfl, rfl, hcount⟩

theorem completeWorkflowExecution_knownStart {execution : WorkflowExecution} {output : Record}
    {startedAt : Int} {h : WorkerHistory} (hk : KnowsStart m.executionId h startedAt) :
    SafeFrom (KnownStartOp m.executionId) h
      (completeWorkflowExecution m execution output startedAt) := by
  refine safeFrom_perform_bind trivial fun completedAt => ?_
  refine safeFrom_perform_bind trivial fun eventId => ?_
  refine safeFrom_perform_bind ?_ fun completion => ?_
  · intro output' completedAt' hdata
    cases hdata
    exact ⟨m.workflowId, startedAt, rfl, hk.mono (by simp)⟩
  · exact knownStart_of_leaves (issues_preliminary_leaves (afterTransition_preliminary completion
      execution.id (fun _ => execution.id) (issues_throw _) (issues_throw _))) _

variable [Runtime]

theorem processWorkflowExecution_knownStart :
    Safe (KnownStartOp m.executionId) (processWorkflowExecution m) := fun h => by
  refine safeFrom_perform_bind trivial fun now => ?_
  refine safeFrom_perform_bind trivial fun existingExecution? => ?_
  cases existingExecution? with
  | none => trivial
  | some existingExecution =>
      dsimp only
      split
      · exact knownStart_of_leaves (issues_preliminary_leaves (dispatchPending_preliminary _)) _
      · rename_i hopen
        refine wp_bind (wp_mono ?_ (fun _ _ _ => trivial) (wp_of_spec
          (enterRunning_preliminary existingExecution (existingExecution.startedAt.getD now))
          fun _ _ _ hop => hop.1.knownStartOp))
        rintro execution? h' ⟨events, rfl, -, hentered⟩
        cases execution? with
        | none => trivial
        | some execution =>
            have hread := saw_singleton (h ++ [⟨.newDate, .ok now⟩])
              (.findExecution m.executionId) (some existingExecution)
            have hknows := (hentered execution rfl).knowsStart hread (by simpa using hopen)
            refine SafeFrom.bind (safe_of_spec (executeWorkflowNodes_spec m execution)
              (fun _ _ hop => hop.knownStartOp) _) fun output h' hle => ?_
            exact completeWorkflowExecution_knownStart m (hknows.mono hle)

theorem handleDelivery_knownStart (message : ConsumeMessage) :
    Safe (KnownStartOp (messageExecutionId message)) (handleDelivery message) := by
  have hack : ∀ x, Safe (KnownStartOp x) (ack message) := fun _ => safe_perform fun _ => trivial
  unfold handleDelivery messageExecutionId
  cases parseWorkflowExecutionRequestedMessage message with
  | none =>
      exact ((safe_perform fun _ => trivial).bind fun _ =>
        knownStart_of_leaves (publish_leaves _)).bind fun _ => hack ""
  | some m =>
      exact ((processWorkflowExecution_knownStart m).bind fun _ => hack _).tryCatch fun error =>
        knownStart_of_leaves (handleFailure_leaves m message error)

end

end FlowPilot
