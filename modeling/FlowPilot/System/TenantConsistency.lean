import FlowPilot.System.Commands
import FlowPilot.System.NodeFailure
import FlowPilot.System.Provenance
import FlowPilot.Worker.AiOrchestratorClient

/-!
# Tenant consistency

The worker takes the workspace and the workflow of everything it produces
from the command, and compares neither with the row of the execution. So
what it produces carries the ids of the row exactly as far as the command
does; and a command does, as long as all commands come from the API.
-/

namespace FlowPilot

open Prog hiding pure throw bind tryCatch

/-! ## What is produced -/

/-- `payload.workflowId`. -/
def LifecyclePayload.workflowId : LifecyclePayload → String
  | started workflowId _ => workflowId
  | completed workflowId _ _ _ => workflowId
  | failed workflowId _ _ => workflowId
  | nodeStarted workflowId _ _ _ _ _ => workflowId
  | nodeCompleted workflowId _ _ _ _ _ _ => workflowId
  | nodeFailed workflowId _ _ _ _ _ => workflowId
  | aiTraceCreated trace => trace.workflowId

/-- The request to the AI orchestrator that a call makes. -/
def WorkerOp.aiRequest : WorkerOp → Option AiPromptRunInput
  | .executeWorkflowNode node context =>
      match node.config with
      | .aiPromptAction config => some (executeAiPromptActionNode node config context)
      | _ => none
  | _ => none

/-- Whatever a run with these events has produced carries the two ids. A row
that was there before keeps its own. -/
structure CarriesIds (workspaceId workflowId : String) (s : Store) (events : WorkerHistory)
    (s' : Store) : Prop where
  nodeExecutions : ∀ later ∈ s'.nodeExecutions,
    (∃ row ∈ s.nodeExecutions, row.SameIds later)
    ∨ (later.workspaceId = workspaceId ∧ later.workflowId = workflowId)
  aiTraces : ∀ trace ∈ s'.aiTraces, trace ∈ s.aiTraces
    ∨ (trace.workspaceId = workspaceId ∧ trace.workflowId = workflowId)
  lifecycleEvents : ∀ later ∈ s'.outbox, (∃ row ∈ s.outbox, SameEvent row later)
    ∨ (later.payload.workspaceId = workspaceId
      ∧ later.payload.payload.workflowId = workflowId)
  requests : ∀ ev ∈ events, ∀ request, ev.op.aiRequest = some request →
    request.workspaceId = workspaceId ∧ request.workflowId = workflowId

/-! ## The ids of the command -/

theorem CreatedFor.ids {m : WorkflowExecutionRequestedMessage} {message : WorkflowLifecycleMessage}
    (h : CreatedFor m message) :
    message.workspaceId = m.workspaceId ∧ message.payload.workflowId = m.workflowId := by
  cases h with
  | aiTraceCreated eventId trace htrace => exact ⟨rfl, htrace.workflowId⟩
  | _ => exact ⟨rfl, rfl⟩

theorem MadeFor.aiRequest {m : WorkflowExecutionRequestedMessage} {op : WorkerOp}
    (hop : MadeFor m op) {request : AiPromptRunInput} (h : op.aiRequest = some request) :
    request.workspaceId = m.workspaceId ∧ request.workflowId = m.workflowId := by
  cases op with
  | executeWorkflowNode node context =>
      obtain rfl : context.message = m := hop
      simp only [WorkerOp.aiRequest] at h
      split at h
      · cases h
        exact ⟨rfl, rfl⟩
      · cases h
  | _ => cases h

section

variable [Runtime] {env : Environment}

/-- **Tenant consistency.** What the processing of a command produces carries
the ids of the command; where these are the ids of the row that the command
names, it carries those of the row. -/
theorem processWorkflowExecution_carriesIds (env : Environment)
    (m : WorkflowExecutionRequestedMessage) {events : WorkerHistory} {out : Except JsError Unit}
    {w w' : World} (htrace : Trace (processWorkflowExecution m) events out)
    (hreplays : Replays env.exec w events w') :
    CarriesIds m.workspaceId m.workflowId w.store events w'.store
    ∧ ∀ row, w.store.executions m.executionId = some row → m.workspaceId = row.workspaceId →
      m.workflowId = row.workflowId →
      CarriesIds row.workspaceId row.workflowId w.store events w'.store := by
  have hops := (spec_trace (processWorkflowExecution_madeFor m) htrace).1
  have hadds := replays_addsFor hops hreplays
  have hcarries : CarriesIds m.workspaceId m.workflowId w.store events w'.store := by
    refine ⟨fun later hlater => ?_, fun trace htrace => ?_, fun later hlater => ?_,
      fun ev hev request hrequest => (hops ev hev).aiRequest hrequest⟩
    · exact (hadds.nodeExecutions later hlater).imp_right fun h => ⟨h.workspaceId, h.workflowId⟩
    · exact (hadds.aiTraces trace htrace).imp_right fun h => ⟨h.workspaceId, h.workflowId⟩
    · exact (hadds.outbox later hlater).imp_right fun h => h.payload.ids
  refine ⟨hcarries, fun row _ hworkspace hworkflow => ?_⟩
  rw [← hworkspace, ← hworkflow]
  exact hcarries

/-! ## The commands of the API -/

/-- A command names an execution that has its ids. -/
def AgreesWithRow (s : Store) (message : ConsumeMessage) : Prop :=
  ∀ m : WorkflowExecutionRequestedMessage, message.content = .json m.value →
    ∃ row, s.executions m.executionId = some row ∧ m.workspaceId = row.workspaceId
      ∧ m.workflowId = row.workflowId

/-- So do all commands of the system. -/
structure CommandsAgree (s : WorkerPool) : Prop where
  commands : ∀ message ∈ s.world.commands, AgreesWithRow s.world.store message
  retries : ∀ message ∈ s.world.retries, AgreesWithRow s.world.store message
  deliveries : ∀ t th message, s.threads t = some th → th.info = .delivery message →
    AgreesWithRow s.world.store message

omit [Runtime] in
theorem commandsAgree_iff {s : WorkerPool} :
    CommandsAgree s ↔ ∀ message, Circulates s message → AgreesWithRow s.world.store message := by
  constructor
  · rintro h message (hmem | hmem | ⟨t, th, hth, hinfo⟩)
    · exact h.commands message hmem
    · exact h.retries message hmem
    · exact h.deliveries t th message hth hinfo
  · exact fun h => ⟨fun message hmem => h message (Or.inl hmem),
      fun message hmem => h message (Or.inr (Or.inl hmem)),
      fun t th message hth hinfo => h message (Or.inr (Or.inr ⟨t, th, hth, hinfo⟩))⟩

omit [Runtime] in
theorem AgreesWithRow.of_content {s : Store} {message message' : ConsumeMessage}
    (h : AgreesWithRow s message) (hcontent : message'.content = message.content) :
    AgreesWithRow s message' := fun m hm => h m (hcontent ▸ hm)

/-- The ids of a row stay what they are. -/
def Store.KeepsIds (s s' : Store) : Prop :=
  ∀ id row, s.executions id = some row → ∃ later, s'.executions id = some later
    ∧ later.workspaceId = row.workspaceId ∧ later.workflowId = row.workflowId

omit [Runtime] in
theorem AgreesWithRow.later {s s' : Store} {message : ConsumeMessage}
    (h : AgreesWithRow s message) (hs : s.KeepsIds s') : AgreesWithRow s' message := by
  intro m hm
  obtain ⟨row, hrow, hworkspace, hworkflow⟩ := h m hm
  obtain ⟨later, hlater, hworkspace', hworkflow'⟩ := hs _ row hrow
  exact ⟨later, hlater, hworkspace.trans hworkspace'.symm, hworkflow.trans hworkflow'.symm⟩

variable {s s' : WorkerPool} {l : WorkerLabel}

theorem Reached.keepsIds (hr : Reached s) (hs : Pool.Step (workerSystem env) s l s') :
    s.world.store.KeepsIds s'.world.store := by
  intro id row hrow
  rcases hr.rows hs with heq | ⟨id', row', hnone, -, -, heq⟩
    | ⟨_, _, _, _, _, _, t, row', -, -, -, hmoved⟩
  · exact ⟨row, heq ▸ hrow, rfl, rfl⟩
  · have hne : id ≠ id' := by
      rintro rfl
      cases hnone.symm.trans hrow
    exact ⟨row, by rw [heq, Function.update_of_ne hne, hrow], rfl, rfl⟩
  · rw [hmoved.executions]
    by_cases hid : id = t.id
    · subst hid
      obtain rfl := Option.some.inj (hrow.symm.trans hmoved.found)
      refine ⟨_, Function.update_self .., ?_⟩
      cases t.data <;> exact ⟨rfl, rfl⟩
    · exact ⟨row, by rw [Function.update_of_ne hid, hrow], rfl, rfl⟩

/-- The command that the API publishes for an execution agrees with it. -/
theorem agreesWithRow_requested {store : Store} {execution : WorkflowExecution}
    {eventId occurredAt actorUserId : String}
    (hfound : store.findExecution execution.id = some execution) :
    AgreesWithRow store
      (requestPublication (requestCommand execution eventId occurredAt actorUserId)).toMessage := by
  intro m hm
  have hvalue := Buffer.json.inj hm
  obtain ⟨row, hrow, hexecution⟩ := Option.map_eq_some_iff.mp hfound
  obtain rfl : requestCommand execution eventId occurredAt actorUserId = m := by
    cases m
    cases hvalue
    rfl
  refine ⟨row, hrow, ?_, ?_⟩
  · rw [← hexecution]
    rfl
  · rw [← hexecution]
    rfl

/-- The commands of a system whose commands come from the API agree with
their rows. -/
theorem ReachableUnder.commandsAgree {C : WorkerPool → WorkerLabel → Prop}
    (harrives : ∀ message, env.arrives message →
      parseWorkflowExecutionRequestedMessage message = none)
    (h : ReachableUnder env C s) : CommandsAgree s := by
  induction h with
  | start hw =>
      subst hw
      exact ⟨by simp [World.empty], by simp [World.empty], by simp⟩
  | @step s s' l hreach _ hs ih =>
      have hr := ReachableUnder.reached hreach
      have hagree := commandsAgree_iff.mp ih
      refine commandsAgree_iff.mpr fun message hmessage => AgreesWithRow.later ?_ (hr.keepsIds hs)
      rcases circulates_step hr hs hmessage with ⟨before, hbefore, hcontent⟩ | harrived
        | ⟨execution, eventId, occurredAt, actorUserId, hfound, hcontent⟩
      · exact (hagree before hbefore).of_content hcontent
      · intro m hm
        cases (harrives _ harrived).symm.trans (parse_of_content hm)
      · exact (agreesWithRow_requested hfound).of_content hcontent

end

/-! ## A command of another tenant -/

/-- A command for the execution, with the ids of another workspace. -/
def foreignCommand : WorkflowExecutionRequestedMessage :=
  requestCommand { newExecution promptWorkflowDefinition with workspaceId := "another-workspace" }
    "command" "1970-01-01T00:00:00.000Z" "user"

/-- The requests of a run that carry this workspace. -/
def requestsFor (workspaceId : String) (events : WorkerHistory) : List AiPromptRunInput :=
  (events.filterMap (·.op.aiRequest)).filter (·.workspaceId = workspaceId)

theorem exists_request {workspaceId : String} {events : WorkerHistory}
    (h : requestsFor workspaceId events ≠ []) :
    ∃ ev ∈ events, ∃ request, ev.op.aiRequest = some request
      ∧ request.workspaceId = workspaceId := by
  obtain ⟨request, hrequest⟩ := List.exists_mem_of_ne_nil _ h
  obtain ⟨hmem, hworkspace⟩ := List.mem_filter.mp hrequest
  obtain ⟨ev, hev, hop⟩ := List.mem_filterMap.mp hmem
  exact ⟨ev, hev, request, hop, of_decide_eq_true hworkspace⟩

/-- A processing that asks the AI orchestrator, with the ids of its row. -/
theorem processWorkflowExecution_carriesIds_prompt :
    ∃ (_ : Runtime) (events : WorkerHistory) (out : Except JsError Unit) (w' : World),
      Trace (processWorkflowExecution (newCommand promptWorkflowDefinition)) events out
      ∧ requestsFor "workspace" events ≠ []
      ∧ CarriesIds "workspace" "workflow"
        (World.withExecution (newExecution promptWorkflowDefinition)).store events w'.store := by
  let _ : Runtime := .sample false
  obtain ⟨events, out, w', htrace, hreplays, hrequests⟩ :=
    exists_trace_of_script (newRow promptWorkflowDefinition) (fun _ => true) 100 0
      (p := processWorkflowExecution (newCommand promptWorkflowDefinition))
      (w := .withExecution (newExecution promptWorkflowDefinition))
      (P := fun events _ => requestsFor "workspace" events ≠ []) (by decide +kernel)
  exact ⟨_, events, out, w', htrace, hrequests,
    (processWorkflowExecution_carriesIds _ _ htrace hreplays).2
      (newRow promptWorkflowDefinition) rfl rfl rfl⟩

/-- The worker processes the foreign command, and asks the AI orchestrator
in the name of the other workspace. -/
theorem foreign_command_processed :
    ∃ (_ : Runtime) (events : WorkerHistory) (out : Except JsError Unit) (w' : World)
      (row : WorkflowExecutionRow),
      Trace (processWorkflowExecution foreignCommand) events out
      ∧ Replays (scriptEnvironment (newRow promptWorkflowDefinition)).exec
        (.withExecution (newExecution promptWorkflowDefinition)) events w'
      ∧ (World.withExecution (newExecution promptWorkflowDefinition)).store.executions
        foreignCommand.executionId = some row
      ∧ ¬ CarriesIds row.workspaceId row.workflowId
        (World.withExecution (newExecution promptWorkflowDefinition)).store events w'.store := by
  let _ : Runtime := .sample false
  obtain ⟨events, out, w', htrace, hreplays, hrequests⟩ :=
    exists_trace_of_script (newRow promptWorkflowDefinition) (fun _ => true) 100 0
      (p := processWorkflowExecution foreignCommand)
      (w := .withExecution (newExecution promptWorkflowDefinition))
      (P := fun events _ => requestsFor "another-workspace" events ≠ []) (by decide +kernel)
  refine ⟨_, events, out, w', newRow promptWorkflowDefinition, htrace, hreplays, rfl, fun h => ?_⟩
  obtain ⟨ev, hev, request, hop, hworkspace⟩ := exists_request hrequests
  exact absurd (hworkspace.symm.trans (h.requests ev hev request hop).1) (by decide)

end FlowPilot
