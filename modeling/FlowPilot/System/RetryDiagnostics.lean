import FlowPilot.Api.WorkflowReads
import FlowPilot.System.FailureOrigin
import FlowPilot.System.OutboxAgreement
import FlowPilot.System.OutboxAttempts

/-!
# The retry diagnostics

What the API reports as the retries of a command, next to what the workers
did with it. The reported number is the publish counter of the failed event:
it counts the recorded dispatches of that event, all of which follow the
failure of the execution, and not the retry copies of the command. The
reported failure is the one the execution was failed with; an attempt that
fails later leaves no trace (`retry_diagnostics`).

In `exists_lateFailure` neither number nor failure are those of the attempts:
the execution is failed at once, and five deliveries try to dispatch its
failed event.
-/

namespace FlowPilot

open StepOrder
open Prog hiding pure throw bind tryCatch

section

variable [Runtime] {env : Environment} {s : WorkerPool} {labels : List WorkerLabel} {x : String}

/-! ## Retry copies -/

/-- The step publishes a retry copy of a command for `x`. -/
def IsRetryCopy (x : String) : WorkerLabel → Bool
  | .act _ ⟨.publish p, reply⟩ => reply.applied && p.exchange = .retry
      && (parseWorkflowExecutionRequestedMessage p.toMessage).any (·.executionId = x)
  | _ => false

/-- The diagnostics tell the number of retry copies and the last failure. -/
structure RetryDiagnosticsTrue (retry : Api.WorkflowExecutionRetryDiagnostics) (copies : Nat)
    (lastFailure? : Option WorkerFailure) : Prop where
  attempts : retry.attempts = copies
  failure : ∃ failure ∈ lastFailure?, retry.lastFailureCode = some failure.code
    ∧ retry.lastFailureMessage = some failure.message ∧ retry.retryable = some failure.retryable

/-! ## What the API reads -/

/-- The database holds the outbox of the store, and of the execution `x` the
row that the store has. -/
structure ReadsStore (db : Api.Database) (s : Store) (x : String) : Prop where
  execution : ∀ execution ∈ db.workflowExecutions, execution.id = x →
    ∃ row, s.executions x = some row ∧ execution.status = row.status
      ∧ execution.error = row.error.map (·.toJson)
  outbox : db.outboxMessages = s.outbox

omit [Runtime] in
theorem asFlowPilotFailure_toJson (error : FlowPilotExecutionError) :
    Api.asFlowPilotFailure error.toJson = some ⟨error.code, error.message, error.retryable⟩ := by
  simp [Api.asFlowPilotFailure, FlowPilotExecutionError.toJson, Json.get?, List.lookup_cons]

omit [Runtime] in
theorem keyContains_of_failedKey {message : OutboxMessage}
    (hkey : message.idempotencyKey = failedKey x) : Api.Database.keyContains x message = true := by
  have hlist : message.idempotencyKey.toList = "workflow.execution.failed:".toList ++ x.toList :=
    hkey ▸ String.toList_append
  have hinfix : x.toList <:+: message.idempotencyKey.toList :=
    hlist ▸ (List.suffix_append _ _).isInfix
  exact decide_eq_true hinfix

omit [Runtime] in
theorem ReadsStore.mem_findManyOutboxMessage {db : Api.Database} {store : Store}
    (hdb : ReadsStore db store x) {ctx : Api.DbContext} {message : OutboxMessage} :
    message ∈ db.findManyOutboxMessage ctx x
      ↔ message ∈ store.outbox ∧ Api.Database.keyContains x message = true := by
  rw [Api.Database.findManyOutboxMessage, Api.mem_orderByAsc, List.mem_filter, hdb.outbox]

/-- The failed event of `x`, and the only one that the API finds for `x`. -/
structure IsFailedEvent (outbox : List OutboxMessage) (x : String) (message : OutboxMessage) :
    Prop where
  mem : message ∈ outbox
  key : message.idempotencyKey = failedKey x
  name : message.eventName = .workflowExecutionFailed
  only : ∀ other ∈ outbox, other.eventName = .workflowExecutionFailed →
    Api.Database.keyContains x other = true → other = message

omit [Runtime] in
theorem IsFailedEvent.find? {db : Api.Database} {store : Store} {message : OutboxMessage}
    (h : IsFailedEvent store.outbox x message) (hdb : ReadsStore db store x)
    (ctx : Api.DbContext) :
    (db.findManyOutboxMessage ctx x).find? (·.eventName = .workflowExecutionFailed)
      = some message := by
  have hmem : message ∈ db.findManyOutboxMessage ctx x :=
    hdb.mem_findManyOutboxMessage.mpr ⟨h.mem, keyContains_of_failedKey h.key⟩
  obtain ⟨found, hfound⟩ : ∃ found, (db.findManyOutboxMessage ctx x).find?
      (·.eventName = .workflowExecutionFailed) = some found :=
    Option.isSome_iff_exists.mp (List.find?_isSome.mpr ⟨message, hmem, decide_eq_true h.name⟩)
  have hname : found.eventName = .workflowExecutionFailed := by simpa using List.find?_some hfound
  obtain ⟨hstored, hcontains⟩ :=
    hdb.mem_findManyOutboxMessage.mp (List.mem_of_find?_eq_some hfound)
  rw [hfound, h.only found hstored hname hcontains]

omit [Runtime] in
/-- The diagnostics of a failed execution show the counter of its failed
event, and its error. -/
theorem findExecutionDiagnostics_retry {db : Api.Database} {store : Store} {ctx : Api.DbContext}
    {workspaceId workflowId : String} {diagnostics : Api.WorkflowExecutionDiagnostics}
    (hdb : ReadsStore db store x)
    (hread : Api.findExecutionDiagnostics ctx db workspaceId workflowId x = .ok diagnostics)
    {row : WorkflowExecutionRow} (hrow : store.executions x = some row)
    (hstatus : row.status = .failed) {error : FlowPilotExecutionError}
    (herror : row.error = some error) {message : OutboxMessage}
    (hevent : IsFailedEvent store.outbox x message) :
    diagnostics.retry
      = ⟨message.attempts, true, some error.code, some error.message, some error.retryable⟩ := by
  have hfirst := hevent.find? hdb ctx
  simp only [Api.findExecutionDiagnostics, Api.findExecution] at hread
  cases hfind : db.findFirstWorkflowExecution x workspaceId workflowId with
  | none =>
      rw [hfind] at hread
      cases hread
  | some execution =>
      obtain ⟨hmem, hid, -, -⟩ := Api.mem_of_findFirstWorkflowExecution hfind
      obtain ⟨row', hrow', hstatus', herror'⟩ := hdb.execution execution hmem hid
      obtain rfl := Option.some.inj (hrow'.symm.trans hrow)
      have hfailure : ∀ payload, Api.getFailureFromExecutionDiagnostics execution.error payload
          = some ⟨error.code, error.message, error.retryable⟩ := by
        intro payload
        rw [herror', herror]
        simp [Api.getFailureFromExecutionDiagnostics, asFlowPilotFailure_toJson]
      simp only [hfind] at hread
      cases hread
      simp [Api.toWorkflowExecutionResponse, hfirst, hfailure, hstatus', hstatus]

end

/-! ## The last failure -/

section

variable [Runtime] {env : Environment} {s : WorkerPool} {labels : List WorkerLabel} {x : String}
  {failures : List WorkerFailure} {t : Nat} {message : ConsumeMessage}
  {m : WorkflowExecutionRequestedMessage} {first : WorkerHistory} {e : JsError}

/-- Once its attempt has failed, a delivery goes on without another failure. -/
theorem CommandRun.acts (hm : parseWorkflowExecutionRequestedMessage message = some m)
    (htrace : Trace (processAndAck message m) first (.error e)) {events : WorkerHistory}
    {p q : Worker Unit} (hafter : After p events q) :
    ∀ {s : WorkerPool} {labels : List WorkerLabel} {history : WorkerHistory} {w' : World},
      CommandRun env x labels s failures → s.threads t = some ⟨.delivery message, history, p⟩ →
      first <+: history → Replays env.exec s.world events w' →
      CommandRun env x (labels ++ events.map (.act t)) ⟨w', Function.update s.threads t
        (some ⟨.delivery message, history ++ events, q⟩)⟩ failures := by
  induction hafter with
  | refl p =>
      intro s labels history w' hrun hth _ hreplays
      obtain rfl : s.world = w' := hreplays
      rw [List.append_nil, ← hth, Function.update_eq_self, List.map_nil, List.append_nil]
      exact hrun
  | @call op k reply events q _ ih =>
      intro s labels history w' hrun hth hprefix hreplays
      obtain ⟨w₁, hexec, hrest⟩ := hreplays
      obtain ⟨past, rfl⟩ := hprefix
      have hsilent : CommandRun env x (labels ++ [.act t ⟨op, reply⟩]) ⟨w₁,
          Function.update s.threads t (some ⟨.delivery message,
            first ++ past ++ [⟨op, reply⟩], k reply.result⟩)⟩ failures := by
        refine .silent hrun trivial (.act hth hexec) ?_
        rintro failure ⟨_, _, message', m', h, p', e', hl, hth', hm', -, htrace', -⟩
        cases hl
        cases (Function.update_self ..).symm.trans hth'
        cases hm.symm.trans hm'
        rw [List.append_assoc] at htrace'
        exact absurd (htrace.rest_eq_nil htrace') (by simp)
      have hlonger : first <+: first ++ past ++ [⟨op, reply⟩] := by simp
      have hdone := ih hsilent (Function.update_self ..) hlonger hrest
      simpa using hdone

/-- The failure of an attempt is the last one until the next attempt. -/
theorem exists_commandRun_attempt
    (hrun : Pool.Run (workerSystem env) (fun _ _ => True) ⟨.empty, fun _ => none⟩ labels s)
    (hth : s.threads t = some ⟨.delivery message, [], handleDelivery message⟩)
    (hm : parseWorkflowExecutionRequestedMessage message = some m) (hx : m.executionId = x)
    {rest : WorkerHistory} {q : Worker Unit} {w₁ w' : World}
    (hattempt : After (processAndAck message m) first (.throw e))
    (hfirst : Replays env.exec s.world first w₁)
    (hhandler : After (handleFailure message m e) rest q) (hrest : Replays env.exec w₁ rest w') :
    ∃ failures, CommandRun env x (labels ++ (first ++ rest).map (.act t)) ⟨w',
        Function.update s.threads t (some ⟨.delivery message, first ++ rest, q⟩)⟩ failures
      ∧ failures.getLast? = some (normalizeWorkerFailure e) := by
  have htrace : Trace (processAndAck message m) first (.error e) :=
    trace_of_after hattempt (.throw e)
  have hbody : After (handleDelivery message) first (handleFailure message m e) := by
    unfold handleDelivery
    rw [hm]
    exact hattempt.tryCatch _
  rcases List.eq_nil_or_concat' first with rfl | ⟨before, ev, rfl⟩
  · exact absurd htrace not_trace_nil
  -- the attempt fails with its last call
  obtain ⟨p', hbefore, hlast⟩ := hbody.split
  obtain ⟨k, rfl, hk⟩ := hlast.singleton
  rw [hk] at hhandler
  obtain ⟨w₀, hreplays, w₂, hexec, rfl⟩ := replays_append.mp hfirst
  have hearlier := hrun.trans (Pool.Run.after hbefore hth hreplays fun _ _ _ _ => trivial)
  obtain ⟨failures, hfailures⟩ := hearlier.exists_observed (AttemptFails x)
  have hnoted := Pool.Observed.noted hfailures trivial (.act (Function.update_self ..) hexec)
    ⟨t, _, message, m, _, _, e, rfl, Function.update_self .., hm, hx, htrace, rfl⟩
  have hdone := CommandRun.acts hm htrace hhandler hnoted (Function.update_self ..)
    (List.prefix_refl _) hrest
  exact ⟨_, by simpa using hdone, List.getLast?_concat⟩

end

/-! ## Deliveries, step by step -/

/-- One delivery for each script, with the steps of all. -/
def serveLabels [Runtime] :
    List (Nat → Bool) → Nat → Nat → World → Option (List WorkerLabel × World)
  | [], _, _, w => some ([], w)
  | accepted :: scripts, i, k, w =>
      w.nextCommand.bind fun (message, w₁) =>
        (script accepted 100 i (handleDelivery message) w₁).bind fun (events, q, w₂) =>
          if q.returned then
            (serveLabels scripts (i + 100) (k + 1) w₂).map fun (labels, w') =>
              (w.deliveryLabels k message events ++ labels, w')
          else none

/-- A delivery of the next command, one for `x`, whose attempt throws: its
steps, and what is thrown. -/
def failLabels [Runtime] (x : String) (accepted : Nat → Bool) (i k : Nat) (w : World) :
    Option (List WorkerLabel × JsError × World) :=
  w.nextCommand.bind fun (message, w₁) =>
    (parseWorkflowExecutionRequestedMessage message).bind fun m =>
      (script accepted 100 i (processAndAck message m) w₁).bind fun (first, p, w₂) =>
        match p with
        | .throw e =>
            (script accepted 100 (i + first.length) (handleFailure message m e) w₂).bind
              fun (rest, q, w₃) =>
                if q.returned ∧ m.executionId = x then
                  some (w.deliveryLabels k message (first ++ rest), e, w₃)
                else none
        | _ => none

section

variable [Runtime] {row : WorkflowExecutionRow}

omit [Runtime] in
theorem World.nextCommand_store {w w₁ : World} {message : ConsumeMessage}
    (h : w.nextCommand = some (message, w₁)) : w₁.store = w.store := by
  unfold World.nextCommand at h
  split at h
  · cases h
    rfl
  · cases h
    rfl
  · cases h

/-- What is evaluated is a run; it leaves no delivery open and creates no
execution. -/
theorem serveLabels_run : ∀ {scripts : List (Nat → Bool)} {i k : Nat} {s : WorkerPool}
    {labels : List WorkerLabel} {w' : World}, ReachableSystem (scriptEnvironment row) s →
    Idle k s → serveLabels scripts i k s.world = some (labels, w') →
    ∃ s', Pool.Run (workerSystem (scriptEnvironment row)) (fun _ _ => True) s labels s'
      ∧ Idle (k + scripts.length) s' ∧ s'.world = w'
      ∧ ∀ y, (w'.store.executions y).isSome = (s.world.store.executions y).isSome
  | [], _, k, s, _, _, _, hidle, h => by
      cases h
      exact ⟨s, .refl, hidle, rfl, fun _ => rfl⟩
  | accepted :: scripts, i, k, s, _, w', hs, hidle, h => by
      obtain ⟨⟨message, w₁⟩, hnext, h⟩ := Option.bind_eq_some_iff.mp h
      obtain ⟨⟨events, q, w₂⟩, hscript, h⟩ := Option.bind_eq_some_iff.mp h
      dsimp only at h
      split at h
      · rename_i hreturned
        obtain rfl := eq_pure_of_returned hreturned
        obtain ⟨⟨labels, w⟩, hserve, heq⟩ := Option.map_eq_some_iff.mp h
        cases heq
        have hdelivery := script_sound row hscript
        have hfirst := run_delivery (C := fun _ _ => True) (hidle.free k (Nat.le_refl k))
          (fun _ => trivial) (fun _ _ => trivial) (fun _ _ _ _ => trivial) hnext hdelivery
        have hreach := hfirst.reachable hs
        obtain ⟨s', hrest, hidle', hworld, hsome⟩ :=
          serveLabels_run hreach (hidle.returned hreach) hserve
        rw [Nat.add_right_comm, Nat.add_assoc, ← List.length_cons] at hidle'
        refine ⟨s', hfirst.trans hrest, hidle', hworld, fun y => (hsome y).trans ?_⟩
        have hamong := replays_mono (fun _ _ _ _ => Environment.exec_among y) hdelivery.2
        rw [replaysAmong_isSome hamong, World.nextCommand_store hnext]
      · cases h

/-- What is evaluated is a run, and what is thrown the last failure of it. -/
theorem failLabels_run {accepted : Nat → Bool} {i k : Nat} {s : WorkerPool} {x : String}
    {labels last : List WorkerLabel} {e : JsError} {w' : World}
    (hrun : Pool.Run (workerSystem (scriptEnvironment row)) (fun _ _ => True)
      ⟨.empty, fun _ => none⟩ labels s)
    (hidle : Idle k s) (h : failLabels x accepted i k s.world = some (last, e, w')) :
    ∃ s' failures, CommandRun (scriptEnvironment row) x (labels ++ last) s' failures
      ∧ failures.getLast? = some (normalizeWorkerFailure e) ∧ Idle (k + 1) s' ∧ s'.world = w'
      ∧ ∀ y, (w'.store.executions y).isSome = (s.world.store.executions y).isSome := by
  obtain ⟨⟨message, w₁⟩, hnext, h⟩ := Option.bind_eq_some_iff.mp h
  obtain ⟨m, hm, h⟩ := Option.bind_eq_some_iff.mp h
  obtain ⟨⟨first, p, w₂⟩, hattempt, h⟩ := Option.bind_eq_some_iff.mp h
  dsimp only at h
  split at h
  · rename_i e'
    obtain ⟨⟨rest, q, w₃⟩, hhandler, h⟩ := Option.bind_eq_some_iff.mp h
    dsimp only at h
    split at h
    · rename_i hchecked
      obtain ⟨hreturned, hx⟩ := hchecked
      obtain rfl := eq_pure_of_returned hreturned
      cases h
      obtain ⟨⟨w, threads⟩, hexpiry, rfl, hstart⟩ :=
        startJob_of_nextCommand (C := fun _ _ => True) (fun _ => trivial) hnext
      have hspawned := hrun.trans
        (.step hexpiry trivial (.spawn (hidle.free k (Nat.le_refl k)) hstart))
      obtain ⟨hafter, hfirst⟩ := script_sound row hattempt
      obtain ⟨hafter', hrest⟩ := script_sound row hhandler
      obtain ⟨failures, hfailures, hlast⟩ := exists_commandRun_attempt hspawned
        (Function.update_self ..) hm hx hafter hfirst hafter' hrest
      rw [Function.update_idem] at hfailures
      refine ⟨_, failures, by simpa [World.deliveryLabels] using hfailures, hlast,
        hidle.returned (hfailures.run.reachable (.start rfl)), rfl, fun y => ?_⟩
      have hamong := replays_mono (fun _ _ _ _ => Environment.exec_among y)
        (replays_append.mpr ⟨_, hfirst, hrest⟩)
      rw [replaysAmong_isSome hamong, World.nextCommand_store hnext]
    · cases h
  · cases h

end

/-- What the API reads of the execution `x` with this row. -/
def databaseOf (store : Store) (x : String) (row : WorkflowExecutionRow) : Api.Database :=
  { Api.Database.empty with
    workflowExecutions := [{ id := x, workspaceId := row.workspaceId
                             workflowId := row.workflowId, workflowVersionId := "version"
                             requestedByUserId := some "user", status := row.status
                             input := .obj row.input, output := row.output.map .obj
                             error := row.error.map (·.toJson), startedAt := row.startedAt
                             completedAt := row.completedAt, createdAt := 0, updatedAt := 0 }]
    outboxMessages := store.outbox }

theorem readsStore_databaseOf {store : Store} {x : String} {row : WorkflowExecutionRow}
    (hrow : store.executions x = some row) : ReadsStore (databaseOf store x row) store x := by
  refine ⟨fun execution hexecution _ => ?_, rfl⟩
  obtain rfl := List.mem_singleton.mp hexecution
  exact ⟨row, hrow, rfl, rfl⟩

theorem exists_findExecutionDiagnostics (ctx : Api.DbContext) (store : Store) (x : String)
    (row : WorkflowExecutionRow) : ∃ diagnostics, Api.findExecutionDiagnostics ctx
      (databaseOf store x row) row.workspaceId row.workflowId x = .ok diagnostics := by
  simp [Api.findExecutionDiagnostics, Api.findExecution, Api.Database.findFirstWorkflowExecution,
    databaseOf]

/-! ## The theorem -/

section

variable [Runtime] {env : Environment} {C : WorkerPool → WorkerLabel → Prop} {s : WorkerPool}
  {x : String}

/-- A failed event belongs to an execution that exists. -/
theorem ReachableUnder.exists_failedKey (h : ReachableUnder env C s) {message : OutboxMessage}
    (hmessage : message ∈ s.world.store.outbox)
    (hname : message.eventName = .workflowExecutionFailed) :
    ∃ y, message.idempotencyKey = failedKey y ∧ (s.world.store.executions y).isSome := by
  have hkeyed := ReachableUnder.keyed h message hmessage
  rw [message.eventName_eq, hkeyed.eventName] at hname
  obtain ⟨workflowId, y, error, hpayload⟩ := LifecyclePayload.failed_of_eventName hname
  have hy : message.idempotencyKey = failedKey y := by
    rw [message.idempotencyKey_eq, hkeyed.idempotencyKey, hpayload]
    rfl
  refine ⟨y, hy, Option.isSome_iff_ne_none.mpr fun hnone => ?_⟩
  have hagree := ReachableUnder.agreement h y
  simp only [Agreement, Store.view, hnone] at hagree
  exact hagree .failed _ ⟨message, hmessage, hy, rfl⟩

/-- The failed event of a failed execution is stored; where no other execution
has a failed key that contains its id, the API finds no other for it. -/
theorem ReachableUnder.exists_failedEvent (h : ReachableUnder env C s) {row : WorkflowExecutionRow}
    (hrow : s.world.store.executions x = some row) (hstatus : row.status = .failed)
    (hids : ∀ y, (s.world.store.executions y).isSome → x.toList <:+: (failedKey y).toList →
      y = x) : ∃ message, IsFailedEvent s.world.store.outbox x message := by
  have hagree := ReachableUnder.agreement h x
  simp only [Agreement, Store.view, hrow] at hagree
  obtain ⟨_, message, hmessage, hkey, rfl⟩ := hagree.failed_iff.mp hstatus
  obtain ⟨workflowId, x', error, hpayload, -⟩ :=
    hagree.failed_error _ ⟨message, hmessage, hkey, rfl⟩
  refine ⟨message, hmessage, hkey, ?_, fun other hother hname hcontains => ?_⟩
  · rw [message.eventName_eq, (ReachableUnder.keyed h message hmessage).eventName, hpayload]
    rfl
  · obtain ⟨y, hy⟩ := ReachableUnder.exists_failedKey h hother hname
    have hinfix : x.toList <:+: other.idempotencyKey.toList := of_decide_eq_true hcontains
    rw [hy.1] at hinfix
    obtain rfl := hids y hy.2 hinfix
    exact (ReachableUnder.uniqueRows h).eq_of_key hother hmessage (hy.1.trans hkey.symm)

/-- In every run, whenever an execution is failed: `retry.attempts` is the
publish counter of its failed event, which is the number of its recorded
dispatches when failures are recorded from current snapshots; and the failure
is that of the attempt that failed the execution. -/
theorem retry_diagnostics (env : Environment) (x : String) (labels : List WorkerLabel)
    (s : WorkerPool) (failures : List WorkerFailure) (h : CommandRun env x labels s failures)
    (row : WorkflowExecutionRow) (hrow : s.world.store.executions x = some row)
    (hstatus : row.status = .failed)
    (hids : ∀ y, (s.world.store.executions y).isSome → x.toList <:+: (failedKey y).toList → y = x)
    (db : Api.Database) (hdb : ReadsStore db s.world.store x) (ctx : Api.DbContext)
    (workspaceId workflowId : String) (diagnostics : Api.WorkflowExecutionDiagnostics)
    (hread : Api.findExecutionDiagnostics ctx db workspaceId workflowId x = .ok diagnostics) :
    (∃ message ∈ s.world.store.outbox, message.idempotencyKey = failedKey x
      ∧ diagnostics.retry.attempts = message.attempts
      ∧ (Throughout FailureCurrent labels →
        diagnostics.retry.attempts = labels.countP (RecordsDispatchOf message.id)))
    ∧ ∃ failure ∈ failures, FailedWith env x failure.toFlowPilotExecutionError labels s
      ∧ diagnostics.retry.lastFailureCode = some failure.code
      ∧ diagnostics.retry.lastFailureMessage = some failure.message
      ∧ diagnostics.retry.retryable = some failure.retryable := by
  have hreach : ReachableSystem env s := h.run.reachable (.start rfl)
  obtain ⟨message, hevent⟩ := ReachableUnder.exists_failedEvent hreach hrow hstatus hids
  obtain ⟨failure, hfailure, herror, hfailed⟩ := failedWith_of_commandRun h hrow hstatus
  have hretry := findExecutionDiagnostics_retry hdb hread hrow hstatus herror hevent
  rw [hretry]
  refine ⟨⟨message, hevent.mem, hevent.key, rfl, fun hcurrent => ?_⟩, failure, hfailure, hfailed,
    rfl, rfl, rfl⟩
  exact (dispatchesCounted_of_run h.run hcurrent).rows message hevent.mem

end

/-! ## A late failure -/

/-- The definition of the execution is invalid, so the first attempt fails it.
The failed event finds no room, then or in the four deliveries that follow, and
each of these fails for that; by then three retry copies were published. -/
theorem exists_lateFailure :
    let _ : Runtime := .sample false
    ∃ labels s failures row message last,
      CommandRun (scriptEnvironment (newRow .null)) "execution" labels s failures
      ∧ Throughout FailureCurrent labels
      ∧ (∀ t th, s.threads t = some th → Settled th.history)
      ∧ s.world.commands = [] ∧ s.world.retries = []
      ∧ s.world.store.executions "execution" = some row ∧ row.status = .failed
      ∧ (∀ y, (s.world.store.executions y).isSome → y = "execution")
      ∧ labels.countP (IsRetryCopy "execution") = 3
      ∧ message ∈ s.world.store.outbox ∧ message.idempotencyKey = failedKey "execution"
      ∧ message.attempts = 5
      ∧ failures.getLast? = some last ∧ row.error.map (·.code) ≠ some last.code := by
  intro _
  have hcheck : (serveLabels [(· = 5), fun _ => false, fun _ => false, fun _ => false] 0 0
      (.requesting .null)).any (fun (labels, w) =>
        (failLabels "execution" (fun _ => false) 400 4 w).any fun (last, e, w') =>
          w'.hasStatus "execution" .failed
          && decide (w'.commands = [] ∧ w'.retries = []
            ∧ (labels ++ last).countP (IsRetryCopy "execution") = 3
            ∧ Throughout FailureCurrent ([.env, .env] ++ labels ++ last))
          && (w'.store.executions "execution").any (fun row =>
            row.error.map (·.code) ≠ some (normalizeWorkerFailure e).code)
          && w'.store.outbox.any fun message =>
            message.idempotencyKey = failedKey "execution" ∧ message.attempts = 5) = true := by
    decide +kernel
  obtain ⟨⟨labels, w⟩, hserve, hcheck⟩ := (Option.any_eq_true _ _).mp hcheck
  obtain ⟨⟨final, e, w'⟩, hfail, hcheck⟩ := (Option.any_eq_true _ _).mp hcheck
  simp only [Bool.and_eq_true, decide_eq_true_eq] at hcheck
  obtain ⟨⟨⟨hfailed, hcommands, hretries, hcopies, hcurrent⟩, herror⟩, hevent⟩ := hcheck
  obtain ⟨row, hexecution, hstatus⟩ := World.hasStatus_iff.mp hfailed
  obtain ⟨message, hmessage, hdispatched⟩ := List.any_eq_true.mp hevent
  obtain ⟨hkey, hattempts⟩ := of_decide_eq_true hdispatched
  have hrequesting : Pool.Run (workerSystem (scriptEnvironment (newRow .null)))
      (fun _ _ => True) ⟨.empty, fun _ => none⟩ [.env, .env]
      ⟨.requesting .null, fun _ => none⟩ :=
    run_requesting .null rfl fun _ => trivial
  obtain ⟨s, hrun, hidle, rfl, hsome⟩ :=
    serveLabels_run (hrequesting.reachable (.start rfl)) (.start _) hserve
  obtain ⟨s', failures, hfailures, hlast, hidle', rfl, hsome'⟩ :=
    failLabels_run (hrequesting.trans hrun) hidle hfail
  refine ⟨_, s', failures, row, message, _, hfailures, hcurrent, hidle'.settled, hcommands,
    hretries, hexecution, hstatus, fun y hy => ?_, ?_, hmessage, hkey, hattempts, hlast, ?_⟩
  · rw [hsome', hsome] at hy
    by_contra hne
    simp [World.requesting, World.withExecution, newExecution, Function.update_of_ne hne] at hy
  · rw [List.append_assoc, List.countP_append, hcopies]
    rfl
  · simpa [hexecution] using herror

/-- The theorem after this run: the diagnostics count five dispatches. -/
theorem retry_diagnostics_late :
    ∃ (_ : Runtime) (labels : List WorkerLabel) (s : WorkerPool) (failures : List WorkerFailure)
      (diagnostics : Api.WorkflowExecutionDiagnostics) (message : OutboxMessage)
      (failure : WorkerFailure),
      CommandRun (scriptEnvironment (newRow .null)) "execution" labels s failures
      ∧ message ∈ s.world.store.outbox ∧ message.idempotencyKey = failedKey "execution"
      ∧ diagnostics.retry.attempts = 5 ∧ labels.countP (RecordsDispatchOf message.id) = 5
      ∧ failure ∈ failures ∧ FailedWith (scriptEnvironment (newRow .null)) "execution"
        failure.toFlowPilotExecutionError labels s
      ∧ diagnostics.retry.lastFailureCode = some failure.code := by
  let _ : Runtime := .sample false
  obtain ⟨labels, s, failures, row, message, _, hrun, hcurrent, -, -, -, hrow, hstatus, hids, -,
    hmessage, hkey, hfive, -⟩ := exists_lateFailure
  obtain ⟨diagnostics, hread⟩ :=
    exists_findExecutionDiagnostics ⟨⟨0, "", fun _ => 0⟩, ""⟩ s.world.store "execution" row
  obtain ⟨⟨failedEvent, hevent, hkey', hattempts, hcounted⟩, failure, hfailure, hfailed, hcode,
    -⟩ := retry_diagnostics _ "execution" labels s failures hrun row hrow hstatus
      (fun y hy _ => hids y hy) _ (readsStore_databaseOf hrow) _ _ _ diagnostics hread
  have hunique : UniqueRows s.world.store.outbox :=
    ReachableUnder.uniqueRows (hrun.run.reachable (.start rfl))
  obtain rfl := hunique.eq_of_key hevent hmessage (hkey'.trans hkey.symm)
  have hcount := (hcounted hcurrent).symm.trans (hattempts.trans hfive)
  exact ⟨_, labels, s, failures, diagnostics, failedEvent, failure, hrun, hmessage, hkey,
    hattempts.trans hfive, hcount, hfailure, hfailed, hcode⟩

/-- Three retry copies were published and five are shown, and the failure that
is shown is not the last one. -/
theorem retry_diagnostics_five :
    ∃ (_ : Runtime) (labels : List WorkerLabel) (s : WorkerPool) (failures : List WorkerFailure)
      (row : WorkflowExecutionRow) (db : Api.Database) (ctx : Api.DbContext)
      (diagnostics : Api.WorkflowExecutionDiagnostics),
      CommandRun (scriptEnvironment (newRow .null)) "execution" labels s failures
      ∧ (∀ t th, s.threads t = some th → Settled th.history)
      ∧ s.world.commands = [] ∧ s.world.retries = []
      ∧ s.world.store.executions "execution" = some row ∧ row.status = .failed
      ∧ ReadsStore db s.world.store "execution"
      ∧ Api.findExecutionDiagnostics ctx db row.workspaceId row.workflowId "execution"
        = .ok diagnostics
      ∧ labels.countP (IsRetryCopy "execution") = 3 ∧ diagnostics.retry.attempts = 5
      ∧ (∀ failure ∈ failures.getLast?, diagnostics.retry.lastFailureCode ≠ some failure.code)
      ∧ ¬ RetryDiagnosticsTrue diagnostics.retry (labels.countP (IsRetryCopy "execution"))
        failures.getLast? := by
  let _ : Runtime := .sample false
  obtain ⟨labels, s, failures, row, message, last, hrun, -, hsettled, hcommands, hretries, hrow,
    hstatus, hids, hcopies, hmessage, hkey, hfive, hlast, hcode⟩ := exists_lateFailure
  have hreach : ReachableSystem (scriptEnvironment (newRow .null)) s :=
    hrun.run.reachable (.start rfl)
  have hdb := readsStore_databaseOf hrow
  obtain ⟨diagnostics, hread⟩ :=
    exists_findExecutionDiagnostics ⟨⟨0, "", fun _ => 0⟩, ""⟩ s.world.store "execution" row
  obtain ⟨failure, -, herror, -⟩ := failedWith_of_commandRun hrun hrow hstatus
  obtain ⟨failedEvent, hevent⟩ :=
    ReachableUnder.exists_failedEvent hreach hrow hstatus fun y hy _ => hids y hy
  obtain rfl := (ReachableUnder.uniqueRows hreach).eq_of_key hevent.mem hmessage
    (hevent.key.trans hkey.symm)
  have hretry := findExecutionDiagnostics_retry hdb hread hrow hstatus herror hevent
  have hattempts : diagnostics.retry.attempts = 5 := by rw [hretry, hfive]
  have hother : ∀ failure ∈ failures.getLast?,
      diagnostics.retry.lastFailureCode ≠ some failure.code := by
    intro failure hfailure
    obtain rfl := Option.mem_unique hfailure hlast
    rw [hretry]
    simpa [herror] using hcode
  refine ⟨_, labels, s, failures, row, _, _, diagnostics, hrun, hsettled, hcommands, hretries, hrow,
    hstatus, hdb, hread, hcopies, hattempts, hother, fun htrue => ?_⟩
  obtain ⟨failure, hfailure, hshown, -⟩ := htrue.failure
  exact hother failure hfailure hshown

end FlowPilot
