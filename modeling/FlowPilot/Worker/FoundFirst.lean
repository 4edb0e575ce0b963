import FlowPilot.Worker.StartedFirst

/-!
# The execution comes first

A delivery stores events by themselves only when the database has answered it
with an execution; the other events it stores in the transaction that moves
the row of theirs. And it has asked for the execution before it moves its
row, even when it fails an execution it could not read.
-/

namespace FlowPilot

open Prog hiding pure throw bind tryCatch

/-- An event is stored once an execution was found. -/
def FoundFirst (h : WorkerHistory) : WorkerOp → Prop
  | .db (.upsertOutbox _ _) => ∃ x row, Saw h (.findExecution x) (some row)
  | _ => True

theorem foundFirst_of_storesNothing {h : WorkerHistory} {op : WorkerOp} (hop : StoresNothing op) :
    FoundFirst h op := by
  cases op with
  | db c =>
      cases c with
      | upsertOutbox _ _ => exact hop.elim
      | _ => trivial
  | _ => trivial

theorem dispatchOutboxEvent_foundFirst (row : OutboxMessage) :
    Safe FoundFirst (dispatchOutboxEvent row) :=
  safe_of_spec (dispatchOutboxEvent_exact row) fun _ _ hop =>
    foundFirst_of_storesNothing hop.storesNothing

theorem dispatchPending_foundFirst (executionId : String) :
    Safe FoundFirst (dispatchPendingWorkflowExecutionOutboxMessages executionId) := by
  refine Safe.bind (safe_perform fun _ => trivial) fun rows => ?_
  induction rows with
  | nil => exact safe_pure ()
  | cons row rows ih => exact (dispatchOutboxEvent_foundFirst row).bind fun _ => ih

theorem outboxDispatcherCycle_foundFirst : Safe FoundFirst outboxDispatcherCycle := by
  have hbatch : ∀ (rows : List OutboxMessage) (result : DispatchResult),
      Safe FoundFirst (dispatchBatch rows result) := by
    intro rows
    induction rows with
    | nil => exact fun result => safe_pure result
    | cons row rows ih =>
        exact fun result => Safe.bind
          (Safe.tryCatch ((dispatchOutboxEvent_foundFirst row).bind fun _ => safe_pure _)
            fun _ => safe_pure _)
          ih
  exact Safe.tryCatch (Safe.bind (Safe.bind (safe_perform fun _ => trivial) fun rows =>
    hbatch rows _) fun _ => safe_pure _) fun _ => safe_pure _

/-- Processing stores nothing before it has found the execution, and may
store anything from then on. -/
theorem processWorkflowExecution_foundFirst [Runtime] (m : WorkflowExecutionRequestedMessage) :
    Safe FoundFirst (processWorkflowExecution m) := fun h => by
  refine safeFrom_perform_bind trivial fun startedAt =>
    safeFrom_perform_bind trivial fun existing? => ?_
  cases existing? with
  | none => trivial
  | some existing =>
      refine safeFrom_of_stable
        (K := fun h => ∃ x row, Saw h (.findExecution x) (some row)) ?_ ?_ ?_
      · rintro h ev ⟨x, row, hsaw⟩
        exact ⟨x, row, hsaw.mono (List.prefix_append _ _)⟩
      · intro h op hsaw
        unfold FoundFirst
        split
        · exact hsaw
        · trivial
      · exact ⟨_, existing, saw_singleton _ _ _⟩

theorem failWorkflowExecution_foundFirst (m : WorkflowExecutionRequestedMessage)
    (failure : FlowPilotExecutionError) : Safe FoundFirst (failWorkflowExecution m failure) := by
  refine Safe.bind (safe_perform fun _ => trivial) fun failedAt =>
    Safe.bind (safe_perform fun _ => trivial) fun eventId =>
    Safe.bind (safe_perform fun _ => trivial) fun update => ?_
  split
  · refine Safe.bind (safe_perform fun _ => trivial) fun execution? => ?_
    split
    · split
      · exact dispatchPending_foundFirst _
      · exact safe_throw _
    · exact safe_throw _
  · split
    · exact safe_throw _
    · exact dispatchOutboxEvent_foundFirst _

theorem handleDelivery_foundFirst [Runtime] (message : ConsumeMessage) :
    Safe FoundFirst (handleDelivery message) := by
  have hpublish : ∀ p : Publication, Safe FoundFirst (do let _ ← publish p; pure ()) :=
    fun p => Safe.bind (safe_perform fun _ => trivial) fun _ => safe_pure ()
  have hack : Safe FoundFirst (ack message) := safe_perform fun _ => trivial
  unfold handleDelivery
  split
  · exact Safe.bind (Safe.bind (safe_perform fun _ => trivial) fun _ => hpublish _) fun _ => hack
  · rename_i m _
    refine Safe.tryCatch ((processWorkflowExecution_foundFirst m).bind fun _ => hack) fun e => ?_
    unfold handleFailure
    dsimp only
    split
    · refine Safe.bind ?_ fun _ => hack
      unfold publishRetryCommand
      split
      · exact safe_throw _
      · exact hpublish _
    · exact Safe.tryCatch ((failWorkflowExecution_foundFirst m _).bind fun _ =>
        (hpublish _).bind fun _ => hack) fun _ => safe_perform fun _ => trivial

/-! ## Reads and transactions -/

/-- The row of the execution was asked for. -/
def HasRead (x : String) (h : WorkerHistory) : Prop := ∃ ev ∈ h, ev.op = .db (.findExecution x)

theorem HasRead.append_right {x : String} {h rest : WorkerHistory} (hread : HasRead x h) :
    HasRead x (h ++ rest) := by
  obtain ⟨ev, hev, hop⟩ := hread
  exact ⟨ev, List.mem_append_left _ hev, hop⟩

/-- An execution is moved after it was read, when the clock does not fail. -/
def ReadsFirst [Runtime] (message : ConsumeMessage) (h : WorkerHistory) : WorkerOp → Prop
  | .db (.transaction _) => ∀ m, parseWorkflowExecutionRequestedMessage message = some m →
      (∀ ev ∈ h, ev.op.Infallible → ∃ r, ev.reply = .ok r) → HasRead m.executionId h
  | _ => True

/-- From the first read on, and after a failure of the clock, anything goes. -/
theorem readsFirst_of_stable [Runtime] {message : ConsumeMessage}
    {m : WorkflowExecutionRequestedMessage} {α : Type} {p : Worker α} {h : WorkerHistory}
    (hm : parseWorkflowExecutionRequestedMessage message = some m)
    (hread : (∀ ev ∈ h, ev.op.Infallible → ∃ r, ev.reply = .ok r) → HasRead m.executionId h) :
    SafeFrom (ReadsFirst message) h p := by
  refine safeFrom_of_stable (K := fun h =>
    (∀ ev ∈ h, ev.op.Infallible → ∃ r, ev.reply = .ok r) → HasRead m.executionId h) ?_ ?_ hread
  · intro h ev hK hinfallible
    exact (hK fun ev' hev' => hinfallible ev' (List.mem_append_left _ hev')).append_right
  · intro h op hK
    unfold ReadsFirst
    split
    · intro m' hm'
      obtain rfl := Option.some.inj (hm.symm.trans hm')
      exact hK
    · trivial

theorem handleDelivery_readsFirst [Runtime] (message : ConsumeMessage) :
    SafeFrom (ReadsFirst message) [] (handleDelivery message) := by
  cases hm : parseWorkflowExecutionRequestedMessage message with
  | none =>
    refine safeFrom_of_stable (K := fun _ => True) (fun _ _ => id) (fun h op _ => ?_) trivial
    unfold ReadsFirst
    split
    · intro m hm'
      cases hm.symm.trans hm'
    · trivial
  | some m =>
    simp only [handleDelivery, hm]
    -- the clock, and then the row
    refine ⟨trivial, fun clock _ => ?_⟩
    cases clock with
    | ok startedAt =>
      refine ⟨trivial, fun found _ => readsFirst_of_stable hm fun _ => ?_⟩
      exact ⟨_, List.mem_append_right _ (List.mem_singleton_self _), rfl⟩
    | lost e | failed e =>
      refine readsFirst_of_stable hm fun hinfallible => ?_
      obtain ⟨r, hr⟩ := hinfallible _ (List.mem_append_right _ (List.mem_singleton_self _)) trivial
      cases hr

end FlowPilot
