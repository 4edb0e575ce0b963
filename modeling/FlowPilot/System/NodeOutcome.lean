import FlowPilot.System.Scripts

/-!
# The outcome of a node

The `try` block of an iteration goes on after the output has been stored:
it records the AI trace and publishes the completed event. When the latter
throws, the `catch` block treats the node as failed although its output is
committed. `nodeAttempt_exclusive_iff` says exactly when an attempt avoids
this, and `executeWorkflowNodes_outcomes` says it of every attempt of every
run.
-/

namespace FlowPilot

open Prog hiding pure throw bind tryCatch

/-! ## Outcomes -/

/-- A write to the row of a node, after it was set to `RUNNING`. -/
def UpdatesNode (op : WorkerOp) : Prop := ∃ id data, op = .db (.updateNode id data)

/-- The call that would set a node row to `FAILED`. -/
def FailsNode (op : WorkerOp) : Prop :=
  ∃ id failure failedAt, op = .db (.updateNode id (.failed failure failedAt))

/-- The call that would store the output of a node. -/
def CompletesNode (op : WorkerOp) : Prop :=
  ∃ id output completedAt, op = .db (.updateNode id (.succeeded output completedAt))

theorem FailsNode.updates {op : WorkerOp} : FailsNode op → UpdatesNode op
  | ⟨id, _, _, hop⟩ => ⟨id, _, hop⟩

theorem CompletesNode.updates {op : WorkerOp} : CompletesNode op → UpdatesNode op
  | ⟨id, _, _, hop⟩ => ⟨id, _, hop⟩

/-- The call that would store a node-failed event. -/
def StoresNodeFailed (op : WorkerOp) : Prop :=
  ∃ message, op = .db (.upsertOutbox .nodeExecutionFailed message)

/-- The event stored an AI trace. -/
def recordsTrace (ev : WorkerEvent) : Bool :=
  ev.reply.applied && match ev.op with
    | .db (.createAiTrace _) => true
    | _ => false

/-- What an event does to the row of a node. -/
def applyNodeUpdate (nodeExecutionId : String) (row : WorkflowNodeExecution) (ev : WorkerEvent) :
    WorkflowNodeExecution :=
  match ev.op with
  | .db (.updateNode id data) =>
      if ev.reply.applied = true ∧ id = nodeExecutionId then data.apply row else row
  | _ => row

/-- The row of a node after some of the events of an attempt. -/
def nodeRow (nodeExecutionId : String) (row : WorkflowNodeExecution) (events : WorkerHistory) :
    WorkflowNodeExecution :=
  events.foldl (applyNodeUpdate nodeExecutionId) row

/-- A node that was completed is not failed as well: its row is not set to
`FAILED`, no failed event is stored, at most one AI trace is, and at no point
is the row `FAILED` with an output of the attempt. -/
structure ExclusiveOutcome (nodeExecutionId : String) (events : WorkerHistory) : Prop where
  not_failed : ∀ ev ∈ events, ev.reply.applied = true → ¬ FailsNode ev.op
  no_failed_event : ∀ ev ∈ events, ev.reply.applied = true → ¬ StoresNodeFailed ev.op
  one_trace : (events.filter recordsTrace).length ≤ 1
  row : ∀ (before after : WorkerHistory) (row : WorkflowNodeExecution), events = before ++ after →
    row.status = .running → row.output = none →
    (nodeRow nodeExecutionId row before).status = .failed →
    (nodeRow nodeExecutionId row before).output = none

/-- Without a call that fails the node the row does not fail. -/
theorem nodeRow_status {nodeExecutionId : String} {events : WorkerHistory}
    {row : WorkflowNodeExecution}
    (hall : ∀ ev ∈ events, ev.reply.applied = true → ¬ FailsNode ev.op)
    (hrow : row.status ≠ .failed) : (nodeRow nodeExecutionId row events).status ≠ .failed := by
  induction events generalizing row with
  | nil => exact hrow
  | cons ev events ih =>
      obtain ⟨hev, hrest⟩ := List.forall_mem_cons.mp hall
      refine ih hrest ?_
      obtain ⟨op, reply⟩ := ev
      unfold applyNodeUpdate
      split
      · rename_i id data hop
        dsimp only at hop
        split
        · rename_i happlied
          cases data with
          | succeeded output completedAt => simp [NodeExecutionUpdate.apply]
          | failed failure failedAt =>
              exact absurd ⟨id, failure, failedAt, hop⟩ (hev happlied.1)
        · exact hrow
      · exact hrow

/-- The outcome is exclusive if no call of the failure path takes effect and
one trace is stored at most. -/
theorem exclusiveOutcome_of_calls {nodeExecutionId : String} {events : WorkerHistory}
    (hall : ∀ ev ∈ events, ev.reply.applied = true →
      ¬ FailsNode ev.op ∧ ¬ StoresNodeFailed ev.op)
    (htrace : (events.filter recordsTrace).length ≤ 1) :
    ExclusiveOutcome nodeExecutionId events where
  not_failed ev hev happlied := (hall ev hev happlied).1
  no_failed_event ev hev happlied := (hall ev hev happlied).2
  one_trace := htrace
  row before after row hsplit hstatus _ hfailed := by
    refine absurd hfailed (nodeRow_status (fun ev hev happlied => ?_) (by simp [hstatus]))
    exact (hall ev (by simp [hsplit, hev]) happlied).1

/-! ## The calls of the success path -/

/-- A call that reports on a node: it leaves the row of the node alone and
does not tell that the node failed. -/
def ReportOp (op : WorkerOp) : Prop := ¬ UpdatesNode op ∧ ¬ StoresNodeFailed op

theorem EventOp.not_updatesNode {routingKey : FlowPilotRoutingKey} {op : WorkerOp}
    (h : EventOp routingKey op) : ¬ UpdatesNode op := by
  rintro ⟨id, data, rfl⟩
  exact h

theorem EventOp.report {routingKey : FlowPilotRoutingKey} (hkey : routingKey ≠ .nodeExecutionFailed)
    {op : WorkerOp} (h : EventOp routingKey op) : ReportOp op := by
  refine ⟨h.not_updatesNode, ?_⟩
  rintro ⟨message, rfl⟩
  exact hkey h.1.symm

theorem EventOp.not_recordsTrace {routingKey : FlowPilotRoutingKey} {events : WorkerHistory}
    (h : ∀ ev ∈ events, EventOp routingKey ev.op) : events.filter recordsTrace = [] := by
  refine List.filter_eq_nil_iff.mpr fun ev hev => ?_
  obtain ⟨op, reply⟩ := ev
  have hop : EventOp routingKey op := h _ hev
  cases op with
  | db c =>
      cases c with
      | createAiTrace data => exact hop.elim
      | _ => simp [recordsTrace]
  | _ => simp [recordsTrace]

section

variable (m : WorkflowExecutionRequestedMessage) (node : WorkflowNode) (nodeExecutionId : String)

/-- Recording a trace returns, and stores one trace at most. -/
theorem recordAiTrace_report (data : WorkflowAiTraceCreateData) :
    Spec ReportOp (recordAiTrace m data)
      (fun _ events => (events.filter recordsTrace).length ≤ 1) (fun _ _ => False) := by
  have hone : ∀ ev : WorkerEvent, ([ev].filter recordsTrace).length ≤ 1 :=
    fun ev => List.length_filter_le _ _
  have hcreate : ReportOp (.db (.createAiTrace data)) := by
    constructor
    · rintro ⟨id, data, hop⟩
      cases hop
    · rintro ⟨message, hop⟩
      cases hop
  refine spec_tryCatch (spec_bind (spec_perform hcreate ?_ (fun e => ?_) (fun e => ?_)))
  · intro trace
    have hpublish := spec_mono (fun _ h => EventOp.report (by decide) h)
      (spec_ops (publishAiTraceCreatedEvent_exact m
        { toWorkflowAiTraceCreateData := data, id := trace.id, createdAt := trace.createdAt }))
      (fun _ events h => EventOp.not_recordsTrace h.2)
      (fun _ events h => EventOp.not_recordsTrace h.2)
    refine spec_conseq hpublish (fun _ events h => ?_) (fun _ events h => ?_)
    · rw [List.filter_append, h, List.append_nil]
      exact hone _
    · show (List.filter recordsTrace _).length ≤ 1
      rw [List.append_nil, List.filter_append, h, List.append_nil]
      exact hone _
  · exact hone _
  · exact hone _

variable [Runtime] (input : Record) (startedAt : Int)

theorem recordAiTraceForSuccessfulNode_report (output : Record) (completedAt : Int) :
    Spec ReportOp (recordAiTraceForSuccessfulNode m node nodeExecutionId input output startedAt
        completedAt)
      (fun _ events => (events.filter recordsTrace).length ≤ 1) (fun _ _ => False) := by
  unfold recordAiTraceForSuccessfulNode
  split
  · exact recordAiTrace_report m _
  · exact Nat.zero_le 1

/-! ## An attempt -/

/-- The `try` and `catch` of an iteration. -/
def nodeAttempt : Worker Record :=
  (nodeSuccessPath m node nodeExecutionId input startedAt).tryCatch
    (nodeFailurePath m node nodeExecutionId input startedAt)

/-- What follows a completion that took effect goes well: the completion
itself was reported, and all calls that publish the completed event succeed.
(Recording the trace may fail.) -/
def CompletedCleanly (output : Record) (completedAt : Int) (commit : Reply JsError Unit)
    (later : WorkerHistory) : Prop :=
  commit = .ok () ∧ ∃ trace published, later = trace ++ published
    ∧ Trace (recordAiTraceForSuccessfulNode m node nodeExecutionId input output startedAt
      completedAt) trace (.ok ())
    ∧ Trace (publishNodeCompletedEvent m node nodeExecutionId output startedAt completedAt)
      published (.ok ())
    ∧ ∀ ev ∈ published, CallSucceeded ev

/-- The update that would set the row to `FAILED` has no effect either. -/
def FailureRejected (later : WorkerHistory) : Prop :=
  ∃ ev ∈ later, FailsNode ev.op ∧ ev.reply.applied = false

/-- The success path after the completion. -/
def afterCompletion (output : Record) (completedAt : Int) : Worker Record := do
  recordAiTraceForSuccessfulNode m node nodeExecutionId input output startedAt completedAt
  publishNodeCompletedEvent m node nodeExecutionId output startedAt completedAt
  pure output

/-- It only reports, and stores one trace at most; if it returns, it went
cleanly. -/
theorem afterCompletion_trace {output : Record} {completedAt : Int} {later : WorkerHistory}
    {out : Except JsError Record}
    (h : Trace (afterCompletion m node nodeExecutionId input startedAt output completedAt)
      later out) :
    (∀ ev ∈ later, ReportOp ev.op) ∧ (later.filter recordsTrace).length ≤ 1
    ∧ (out = .ok output
        ∧ CompletedCleanly m node nodeExecutionId input startedAt output completedAt (.ok ()) later
      ∨ ∃ e, out = .error e) := by
  have hrecord := recordAiTraceForSuccessfulNode_report m node nodeExecutionId input startedAt
    output completedAt
  have hpublish := publishNodeCompletedEvent_exact m node nodeExecutionId output startedAt
    completedAt
  rcases trace_bind h with ⟨e, htrace, -⟩ | ⟨_, trace, rest, htrace, hrest, rfl⟩
  · exact (spec_trace hrecord htrace).2.elim
  obtain ⟨hops, hone⟩ := spec_trace hrecord htrace
  have hparts : ∀ {published : WorkerHistory} {result : Except JsError Unit},
      Trace (publishNodeCompletedEvent m node nodeExecutionId output startedAt completedAt)
        published result →
      (∀ ev ∈ trace ++ published, ReportOp ev.op)
      ∧ ((trace ++ published).filter recordsTrace).length ≤ 1 := by
    intro published result hpublished
    have hevents := (spec_trace hpublish hpublished).1
    constructor
    · intro ev hev
      rcases List.mem_append.mp hev with hev | hev
      · exact hops ev hev
      · exact (hevents ev hev).report (by decide)
    · rw [List.filter_append, EventOp.not_recordsTrace hevents, List.append_nil]
      exact hone
  rcases trace_bind hrest with ⟨e, hpublished, rfl⟩ | ⟨_, published, last, hpublished, hlast, rfl⟩
  · obtain ⟨hreport, hone'⟩ := hparts hpublished
    exact ⟨hreport, hone', Or.inr ⟨e, rfl⟩⟩
  · cases hlast
    rw [List.append_nil]
    obtain ⟨hreport, hone'⟩ := hparts hpublished
    refine ⟨hreport, hone', Or.inl ⟨rfl, rfl, trace, published, rfl, htrace, hpublished, ?_⟩⟩
    have hall := (spec_trace hpublish hpublished).2
    exact fun ev hev => by_contra fun hfailed => hall ⟨ev, hev, hfailed⟩

variable {m node nodeExecutionId input startedAt}

theorem CompletedCleanly.trace {output : Record} {completedAt : Int}
    {commit : Reply JsError Unit} {later : WorkerHistory}
    (h : CompletedCleanly m node nodeExecutionId input startedAt output completedAt commit later) :
    Trace (afterCompletion m node nodeExecutionId input startedAt output completedAt) later
      (.ok output) := by
  obtain ⟨-, trace, published, rfl, htrace, hpublished, -⟩ := h
  have hlast : Trace (pure output : Worker Record) [] (.ok output) := .pure output
  have hrest := trace_seq (f := fun _ => pure output) hlast hpublished
  rw [List.append_nil] at hrest
  refine trace_seq (a := ()) ?_ htrace
  exact hrest

/-- The events of an attempt up to the completion of its node. -/
def completionEvents (m : WorkflowExecutionRequestedMessage) (node : WorkflowNode)
    (nodeExecutionId : String) (input output : Record) (completedAt : Int)
    (commit : Reply JsError Unit) : WorkerHistory :=
  [⟨.executeWorkflowNode node ⟨input, m, nodeExecutionId⟩, .ok output⟩,
    ⟨.newDate, .ok completedAt⟩,
    ⟨.db (.updateNode nodeExecutionId (.succeeded output completedAt)), commit⟩]

/-- The success path gets to the completion or writes nothing to the row; it
goes on only if the completion was reported. -/
theorem nodeSuccessPath_trace {events : WorkerHistory} {out : Except JsError Record}
    (h : Trace (nodeSuccessPath m node nodeExecutionId input startedAt) events out) :
    (∀ ev ∈ events, ¬ UpdatesNode ev.op)
    ∨ ∃ output completedAt commit own,
        events = completionEvents m node nodeExecutionId input output completedAt commit ++ own
        ∧ ((commit = .ok ()
            ∧ Trace (afterCompletion m node nodeExecutionId input startedAt output completedAt)
              own out)
          ∨ (own = [] ∧ ∃ e, out = .error e)) := by
  obtain ⟨reply₁, events₁, rfl, h₁⟩ := trace_perform_bind h
  rcases h₁ with ⟨output, rfl, h₁⟩ | ⟨e, -, rfl, -⟩
  swap
  · exact Or.inl (by simp [UpdatesNode])
  obtain ⟨reply₂, events₂, rfl, h₂⟩ := trace_perform_bind h₁
  rcases h₂ with ⟨completedAt, rfl, h₂⟩ | ⟨e, -, rfl, -⟩
  swap
  · exact Or.inl (by simp [UpdatesNode])
  obtain ⟨commit, own, rfl, h₃⟩ := trace_perform_bind h₂
  refine Or.inr ⟨output, completedAt, commit, own, rfl, ?_⟩
  rcases h₃ with ⟨b, rfl, h₃⟩ | ⟨e, -, rfl, rfl⟩
  · exact Or.inl ⟨rfl, h₃⟩
  · exact Or.inr ⟨rfl, e, rfl⟩

/-- After its first write the failure path leaves the row alone. -/
theorem afterFailure_trace {failure : WorkerFailure} {failedAt : Int} {error : JsError}
    {later : WorkerHistory} {out : Except JsError Record}
    (h : Trace (do
      recordAiTraceForFailedNode m node nodeExecutionId input failure startedAt failedAt
      publishNodeFailedEvent m node nodeExecutionId failure failedAt
      throw error : Worker Record) later out) :
    ∀ ev ∈ later, ¬ UpdatesNode ev.op := by
  have hrecord : Spec ReportOp (recordAiTraceForFailedNode m node nodeExecutionId input failure
      startedAt failedAt) (fun _ _ => True) (fun _ _ => True) := by
    unfold recordAiTraceForFailedNode
    split
    · exact spec_conseq (recordAiTrace_report m _) (fun _ _ _ => trivial) (fun _ _ _ => trivial)
    · trivial
  have hpublish := publishNodeFailedEvent_exact m node nodeExecutionId failure failedAt
  have hpublished : ∀ {events : WorkerHistory} {result : Except JsError Unit},
      Trace (publishNodeFailedEvent m node nodeExecutionId failure failedAt) events result →
      ∀ ev ∈ events, ¬ UpdatesNode ev.op :=
    fun htrace ev hev => ((spec_trace hpublish htrace).1 ev hev).not_updatesNode
  rcases trace_bind h with ⟨e, htrace, -⟩ | ⟨_, recorded, rest, htrace, hrest, rfl⟩
  · exact fun ev hev => ((spec_trace hrecord htrace).1 ev hev).1
  intro ev hev
  rcases List.mem_append.mp hev with hev | hev
  · exact ((spec_trace hrecord htrace).1 ev hev).1
  rcases trace_bind hrest with ⟨e, htrace', -⟩ | ⟨_, published, last, htrace', hlast, rfl⟩
  · exact hpublished htrace' ev hev
  · cases hlast
    rw [List.append_nil] at hev
    exact hpublished htrace' ev hev

/-- The failure path writes the row first; without effect on it, it does
nothing more. -/
theorem nodeFailurePath_trace {error : JsError} {rest : WorkerHistory}
    {out : Except JsError Record}
    (hinfallible : ∀ ev ∈ rest, ev.op.Infallible → ∃ r, ev.reply = .ok r)
    (h : Trace (nodeFailurePath m node nodeExecutionId input startedAt error) rest out) :
    ∃ failure now reply after, rest = ⟨.newDate, .ok now⟩
        :: ⟨.db (.updateNode nodeExecutionId (.failed failure now)), reply⟩ :: after
      ∧ (∀ ev ∈ after, ¬ UpdatesNode ev.op) ∧ (reply.applied = false → after = []) := by
  obtain ⟨clock, rest₁, rfl, h₁⟩ := trace_perform_bind h
  have hclock : ∀ e, clock ≠ .lost e ∧ clock ≠ .failed e := by
    intro e
    obtain ⟨r, hr⟩ := hinfallible ⟨.newDate, clock⟩ (by simp) trivial
    dsimp only at hr
    constructor
    · exact fun he => nomatch hr.symm.trans he
    · exact fun he => nomatch hr.symm.trans he
  rcases h₁ with ⟨now, rfl, h₂⟩ | ⟨e, he | he, -⟩
  rotate_left
  · exact absurd he (hclock e).1
  · exact absurd he (hclock e).2
  obtain ⟨reply, after, rfl, h₃⟩ := trace_perform_bind h₂
  refine ⟨_, now, reply, after, rfl, ?_⟩
  rcases h₃ with ⟨b, rfl, h₃⟩ | ⟨e, -, rfl, -⟩
  · exact ⟨afterFailure_trace h₃, nofun⟩
  · exact ⟨by simp, fun _ => rfl⟩

omit [Runtime] in
theorem completionEvents_report {output : Record} {completedAt : Int}
    {commit : Reply JsError Unit} :
    ∀ ev ∈ completionEvents m node nodeExecutionId input output completedAt commit,
      ¬ FailsNode ev.op ∧ ¬ StoresNodeFailed ev.op ∧ recordsTrace ev = false := by
  intro ev hev
  simp only [completionEvents, List.mem_cons, List.not_mem_nil, or_false] at hev
  rcases hev with rfl | rfl | rfl
  · simp [FailsNode, StoresNodeFailed, recordsTrace]
  · simp [FailsNode, StoresNodeFailed, recordsTrace]
  · simp [FailsNode, StoresNodeFailed, recordsTrace]

omit [Runtime] in
/-- A completion among the calls of the success path and of what follows it
is the one they begin with. -/
theorem completion_unique {output output' : Record} {completedAt completedAt' : Int}
    {commit commit' : Reply JsError Unit} {later : WorkerHistory}
    (hlater : ∀ ev ∈ later, ¬ CompletesNode ev.op)
    (hmem : ⟨.db (.updateNode nodeExecutionId (.succeeded output completedAt)), commit⟩
      ∈ completionEvents m node nodeExecutionId input output' completedAt' commit' ++ later) :
    output' = output ∧ completedAt' = completedAt ∧ commit' = commit := by
  rcases List.mem_append.mp hmem with hmem | hmem
  · simp only [completionEvents, List.mem_cons, List.not_mem_nil, or_false] at hmem
    rcases hmem with he | he | he
    · cases he
    · cases he
    · cases he
      exact ⟨rfl, rfl, rfl⟩
  · exact absurd ⟨_, _, _, rfl⟩ (hlater _ hmem)

omit [Runtime] in
/-- After the completion only reports follow, and what takes no effect. -/
theorem exclusiveOutcome_of_reports {output : Record} {completedAt : Int}
    {commit : Reply JsError Unit} {own rest : WorkerHistory}
    (hown : ∀ ev ∈ own, ReportOp ev.op) (hone : (own.filter recordsTrace).length ≤ 1)
    (hrest : ∀ ev ∈ rest, ¬ StoresNodeFailed ev.op ∧ recordsTrace ev = false
      ∧ (ev.reply.applied = true → ¬ FailsNode ev.op)) :
    ExclusiveOutcome nodeExecutionId
      (completionEvents m node nodeExecutionId input output completedAt commit
        ++ (own ++ rest)) := by
  have hstart : ∀ ev ∈ completionEvents m node nodeExecutionId input output completedAt commit,
      ¬ FailsNode ev.op ∧ ¬ StoresNodeFailed ev.op ∧ recordsTrace ev = false :=
    completionEvents_report
  refine exclusiveOutcome_of_calls (fun ev hev happlied => ?_) ?_
  · simp only [List.mem_append] at hev
    rcases hev with hev | hev | hev
    · exact ⟨(hstart ev hev).1, (hstart ev hev).2.1⟩
    · exact ⟨fun h => (hown ev hev).1 h.updates, (hown ev hev).2⟩
    · exact ⟨(hrest ev hev).2.2 happlied, (hrest ev hev).1⟩
  · have hstart' : (completionEvents m node nodeExecutionId input output completedAt
        commit).filter recordsTrace = [] :=
      List.filter_eq_nil_iff.mpr fun ev hev => by simp [(hstart ev hev).2.2]
    have hrest' : rest.filter recordsTrace = [] :=
      List.filter_eq_nil_iff.mpr fun ev hev => by simp [(hrest ev hev).2.1]
    rw [List.filter_append, List.filter_append, hstart', hrest', List.nil_append, List.append_nil]
    exact hone

/-- The update of the row on the failure path decides: with effect the
outcome is not exclusive and the success path did not end cleanly, without
it nothing else speaks against the outcome. -/
theorem failurePath_exclusive_iff {output : Record} {completedAt now : Int}
    {commit : Reply JsError Unit} {failure : WorkerFailure} {own after : WorkerHistory}
    {reply : Reply JsError
      (WorkerOp.db (.updateNode nodeExecutionId (.failed failure now))).Result}
    (hown : ∀ ev ∈ own, ReportOp ev.op) (hone : (own.filter recordsTrace).length ≤ 1)
    (hafter : ∀ ev ∈ after, ¬ UpdatesNode ev.op) (hstop : reply.applied = false → after = []) :
    let later : WorkerHistory := own ++ ⟨.newDate, .ok now⟩
      :: ⟨.db (.updateNode nodeExecutionId (.failed failure now)), reply⟩ :: after
    ExclusiveOutcome nodeExecutionId
        (completionEvents m node nodeExecutionId input output completedAt commit ++ later)
      ↔ CompletedCleanly m node nodeExecutionId input startedAt output completedAt commit later
        ∨ FailureRejected later := by
  intro later
  have hfails : FailsNode (.db (.updateNode nodeExecutionId (.failed failure now))) :=
    ⟨_, _, _, rfl⟩
  cases happlied : reply.applied with
  | true =>
      -- the row is `FAILED` now
      refine iff_of_false (fun hexclusive => ?_) ?_
      · exact hexclusive.not_failed ⟨_, reply⟩ (by simp [later]) happlied hfails
      · rintro (hclean | ⟨ev, hev, hfails', hrejected⟩)
        · obtain ⟨hall, -⟩ :=
            afterCompletion_trace m node nodeExecutionId input startedAt hclean.trace
          exact (hall ⟨_, reply⟩ (by simp [later])).1 hfails.updates
        · simp only [later, List.mem_append, List.mem_cons] at hev
          rcases hev with hev | rfl | rfl | hev
          · exact (hown ev hev).1 hfails'.updates
          · obtain ⟨_, _, _, he⟩ := hfails'
            cases he
          · rw [happlied] at hrejected
            cases hrejected
          · exact hafter ev hev hfails'.updates
  | false =>
      obtain rfl := hstop happlied
      refine iff_of_true (exclusiveOutcome_of_reports hown hone fun ev hev => ?_)
        (Or.inr ⟨⟨_, reply⟩, by simp [later], hfails, happlied⟩)
      simp only [List.mem_cons, List.not_mem_nil, or_false] at hev
      rcases hev with rfl | rfl
      · simp [StoresNodeFailed, recordsTrace, FailsNode]
      · simp [StoresNodeFailed, recordsTrace, happlied]

/-- An attempt that stores an output does so with its third call. From then
on its outcome is exclusive if and only if the rest of the success path goes
cleanly, or the failure path cannot write the row. -/
theorem nodeAttempt_exclusive_iff {output : Record} {completedAt : Int}
    {commit : Reply JsError Unit} {events : WorkerHistory} {out : Except JsError Record}
    (hinfallible : ∀ ev ∈ events, ev.op.Infallible → ∃ r, ev.reply = .ok r)
    (htrace : Trace (nodeAttempt m node nodeExecutionId input startedAt) events out)
    (hmem : ⟨.db (.updateNode nodeExecutionId (.succeeded output completedAt)), commit⟩ ∈ events) :
    ∃ later,
      events = completionEvents m node nodeExecutionId input output completedAt commit ++ later
      ∧ (ExclusiveOutcome nodeExecutionId events
        ↔ CompletedCleanly m node nodeExecutionId input startedAt output completedAt commit later
          ∨ FailureRejected later) := by
  rcases trace_tryCatch htrace with ⟨a, hsuccess, -⟩ | ⟨e, first, rest, hsuccess, hfailure, rfl⟩
  · -- the try block returned
    rcases nodeSuccessPath_trace hsuccess with hnone | ⟨output', completedAt', commit', own, rfl, h⟩
    · exact absurd ⟨_, _, rfl⟩ (hnone _ hmem)
    obtain ⟨rfl, hafter⟩ := h.resolve_right (by rintro ⟨-, e, he⟩; cases he)
    obtain ⟨hops, hone, hclean⟩ :=
      afterCompletion_trace m node nodeExecutionId input startedAt hafter
    obtain ⟨-, hclean⟩ := hclean.resolve_right (by rintro ⟨e, he⟩; cases he)
    obtain ⟨rfl, rfl, rfl⟩ := completion_unique (fun ev hev h => (hops ev hev).1 h.updates) hmem
    refine ⟨own, rfl, iff_of_true ?_ (Or.inl hclean)⟩
    rw [← List.append_nil own]
    exact exclusiveOutcome_of_reports hops hone (by simp)
  · -- it threw
    obtain ⟨failure, now, reply, after, rfl, hafter, hstop⟩ := nodeFailurePath_trace
      (fun ev hev => hinfallible ev (List.mem_append_right _ hev)) hfailure
    have hrest : ∀ ev ∈ (⟨.newDate, .ok now⟩ : WorkerEvent)
        :: ⟨.db (.updateNode nodeExecutionId (.failed failure now)), reply⟩ :: after,
        ¬ CompletesNode ev.op := by
      intro ev hev
      simp only [List.mem_cons] at hev
      rcases hev with rfl | rfl | hev
      · simp [CompletesNode]
      · simp [CompletesNode]
      · exact fun h => hafter ev hev h.updates
    rcases nodeSuccessPath_trace hsuccess with hnone | ⟨output', completedAt', commit', own, rfl, h⟩
    · rcases List.mem_append.mp hmem with hmem | hmem
      · exact absurd ⟨_, _, rfl⟩ (hnone _ hmem)
      · exact absurd ⟨_, _, _, rfl⟩ (hrest _ hmem)
    obtain ⟨hops, hone⟩ : (∀ ev ∈ own, ReportOp ev.op)
        ∧ (own.filter recordsTrace).length ≤ 1 := by
      rcases h with ⟨-, hcompleted⟩ | ⟨rfl, -⟩
      · obtain ⟨hops, hone, -⟩ :=
          afterCompletion_trace m node nodeExecutionId input startedAt hcompleted
        exact ⟨hops, hone⟩
      · simp
    rw [List.append_assoc] at hmem ⊢
    obtain ⟨rfl, rfl, rfl⟩ := completion_unique (fun ev hev => by
      rcases List.mem_append.mp hev with hev | hev
      · exact fun h => (hops ev hev).1 h.updates
      · exact hrest ev hev) hmem
    exact ⟨_, rfl, failurePath_exclusive_iff hops hone hafter hstop⟩

/-- An attempt stores outputs in its own row only. -/
theorem nodeAttempt_completes_own {output : Record} {completedAt : Int} {id : String}
    {commit : Reply JsError Unit} {events : WorkerHistory} {out : Except JsError Record}
    (hinfallible : ∀ ev ∈ events, ev.op.Infallible → ∃ r, ev.reply = .ok r)
    (htrace : Trace (nodeAttempt m node nodeExecutionId input startedAt) events out)
    (hmem : ⟨.db (.updateNode id (.succeeded output completedAt)), commit⟩ ∈ events) :
    id = nodeExecutionId := by
  have hcompletes : ∀ {op : WorkerOp}, op = .db (.updateNode id (.succeeded output completedAt)) →
      UpdatesNode op := fun hop => ⟨_, _, hop⟩
  have hsuccess : ∀ {first : WorkerHistory} {result : Except JsError Record},
      Trace (nodeSuccessPath m node nodeExecutionId input startedAt) first result →
      ⟨.db (.updateNode id (.succeeded output completedAt)), commit⟩ ∈ first →
      id = nodeExecutionId := by
    intro first result hfirst hin
    rcases nodeSuccessPath_trace hfirst with hnone | ⟨_, _, _, own, rfl, hown⟩
    · exact absurd (hcompletes rfl) (hnone _ hin)
    rcases List.mem_append.mp hin with hin | hin
    · simp only [completionEvents, List.mem_cons, List.not_mem_nil, or_false] at hin
      rcases hin with he | he | he
      · cases he
      · cases he
      · cases he
        rfl
    · rcases hown with ⟨-, hafter⟩ | ⟨rfl, -⟩
      · have hops := (afterCompletion_trace m node nodeExecutionId input startedAt hafter).1
        exact absurd (hcompletes rfl) (hops _ hin).1
      · cases hin
  rcases trace_tryCatch htrace with ⟨_, hfirst, -⟩ | ⟨e, first, rest, hfirst, hfailure, rfl⟩
  · exact hsuccess hfirst hmem
  rcases List.mem_append.mp hmem with hmem | hmem
  · exact hsuccess hfirst hmem
  · obtain ⟨failure, now, reply, after, rfl, hafter, -⟩ := nodeFailurePath_trace
      (fun ev hev => hinfallible ev (List.mem_append_right _ hev)) hfailure
    simp only [List.mem_cons] at hmem
    rcases hmem with he | he | hmem
    · cases he
    · cases he
    · exact absurd (hcompletes rfl) (hafter _ hmem)

end

/-! ## The attempts of a run -/

/-- One iteration of the loop that got as far as its `try` block: the calls
before it, and those of the attempt. -/
structure NodeAttempt where
  node : WorkflowNode
  nodeExecutionId : String
  input : Record
  startedAt : Int
  before : WorkerHistory
  events : WorkerHistory
  out : Except JsError Record

namespace NodeAttempt

variable [Runtime] (m : WorkflowExecutionRequestedMessage) (a : NodeAttempt)

def history : WorkerHistory := a.before ++ a.events

/-- The attempt is one for the command `m`: on the row that the database
returned for the node, which nothing has written to since. -/
structure RunOf : Prop where
  row : ∃ row : WorkflowNodeExecution, row.id = a.nodeExecutionId
    ∧ ⟨.db (.upsertRunningNode m a.node a.input a.startedAt), .ok row⟩ ∈ a.before
  before : ∀ ev ∈ a.before, ¬ UpdatesNode ev.op
  trace : Trace (nodeAttempt m a.node a.nodeExecutionId a.input a.startedAt) a.events a.out

end NodeAttempt

section

variable [Runtime] {m : WorkflowExecutionRequestedMessage}

/-- An iteration is an attempt, or fails before it and writes to no row that
is running. -/
theorem runNode_attempt {node : WorkflowNode} {input : Record} {events : WorkerHistory}
    {out : Except JsError Record} (h : Trace (runNode m node input) events out) :
    (∃ a : NodeAttempt, a.RunOf m ∧ a.node = node ∧ a.history = events)
    ∨ ((∃ e, out = .error e) ∧ ∀ ev ∈ events, ¬ UpdatesNode ev.op) := by
  obtain ⟨reply₁, events₁, rfl, h₁⟩ := trace_perform_bind h
  rcases h₁ with ⟨startedAt, rfl, h₁⟩ | ⟨e, -, rfl, rfl⟩
  swap
  · exact Or.inr ⟨⟨e, rfl⟩, by simp [UpdatesNode]⟩
  obtain ⟨reply₂, events₂, rfl, h₂⟩ := trace_perform_bind h₁
  rcases h₂ with ⟨row, rfl, h₂⟩ | ⟨e, -, rfl, rfl⟩
  swap
  · exact Or.inr ⟨⟨e, rfl⟩, by simp [UpdatesNode]⟩
  have hpublish := publishNodeStartedEvent_exact m node row.id input startedAt
  have hbefore : ∀ {published : WorkerHistory} {result : Except JsError Unit},
      Trace (publishNodeStartedEvent m node row.id input startedAt) published result →
      ∀ ev ∈ ⟨.newDate, .ok startedAt⟩
        :: ⟨.db (.upsertRunningNode m node input startedAt), .ok row⟩ :: published,
        ¬ UpdatesNode ev.op := by
    intro published result hpublished ev hev
    simp only [List.mem_cons] at hev
    rcases hev with rfl | rfl | hev
    · simp [UpdatesNode]
    · simp [UpdatesNode]
    · exact ((spec_trace hpublish hpublished).1 ev hev).not_updatesNode
  rcases trace_bind h₂ with ⟨e, hpublished, rfl⟩ | ⟨_, published, own, hpublished, hown, rfl⟩
  · exact Or.inr ⟨⟨e, rfl⟩, hbefore hpublished⟩
  · let a : NodeAttempt :=
      { node, nodeExecutionId := row.id, input, startedAt
        before := ⟨.newDate, .ok startedAt⟩
          :: ⟨.db (.upsertRunningNode m node input startedAt), .ok row⟩ :: published
        events := own, out }
    exact Or.inl ⟨a, ⟨⟨row, rfl, by simp [a]⟩, hbefore hpublished, hown⟩, rfl, rfl⟩

/-- A run of the loop is a sequence of attempts, for the first of its nodes
in order. -/
theorem executeNodes_attempts {definition : WorkflowDefinition} :
    ∀ {nodes : List WorkflowNode} {nodeOutputs : JsMap Record} {currentInput : Record}
      {events : WorkerHistory} {out : Except JsError Record},
      Trace (executeNodes m definition nodes nodeOutputs currentInput) events out →
      ∃ (attempts : List NodeAttempt) (rest : WorkerHistory),
        events = attempts.flatMap NodeAttempt.history ++ rest
        ∧ (∀ ev ∈ rest, ¬ UpdatesNode ev.op) ∧ attempts.map (·.node) <+: nodes
        ∧ ∀ a ∈ attempts, a.RunOf m
  | [], _, _, events, _, h => by
      cases h with
      | pure => exact ⟨[], [], rfl, by simp, List.prefix_rfl, by simp⟩
  | node :: nodes, nodeOutputs, currentInput, events, out, h => by
      rcases trace_bind h with ⟨e, hnode, rfl⟩ | ⟨output, first, later, hnode, hlater, rfl⟩
      · rcases runNode_attempt hnode with ⟨a, ha, rfl, rfl⟩ | ⟨-, hnone⟩
        · exact ⟨[a], [], by simp, by simp, by simp, by simpa using ha⟩
        · exact ⟨[], events, rfl, hnone, List.nil_prefix, by simp⟩
      · obtain ⟨a, ha, rfl, rfl⟩ :=
          (runNode_attempt hnode).resolve_right (by rintro ⟨⟨e, he⟩, -⟩; cases he)
        obtain ⟨attempts, rest, rfl, hrest, hinitial, hattempts⟩ := executeNodes_attempts hlater
        refine ⟨a :: attempts, rest, by simp, hrest, ?_, ?_⟩
        · simpa using hinitial
        · exact List.forall_mem_cons.mpr ⟨ha, hattempts⟩

theorem executeWorkflowNodes_attempts {execution : WorkflowExecution} {events : WorkerHistory}
    {out : Except JsError Record} (h : Trace (executeWorkflowNodes m execution) events out) :
    ∃ (attempts : List NodeAttempt) (rest : WorkerHistory),
      events = attempts.flatMap NodeAttempt.history ++ rest
      ∧ (∀ ev ∈ rest, ¬ UpdatesNode ev.op) ∧ (attempts.map (·.node.id)).Nodup
      ∧ ∀ a ∈ attempts, a.RunOf m := by
  have hthrew : ∀ {e : JsError} {events : WorkerHistory},
      Trace (.throw e : Worker Record) events out → events = [] := by
    rintro e events ⟨⟩
    rfl
  unfold executeWorkflowNodes at h
  cases hsim : assertNoSimulatedWorkflowFailure m with
  | error e =>
      rw [hsim, ofExcept_error_bind] at h
      exact ⟨[], [], hthrew h, by simp, by simp, by simp⟩
  | ok _ =>
  rw [hsim, ofExcept_ok_bind] at h
  cases hparse : parseWorkflowDefinition execution.workflowVersion.definition with
  | error e =>
      rw [hparse, ofExcept_error_bind] at h
      exact ⟨[], [], hthrew h, by simp, by simp, by simp⟩
  | ok definition =>
  rw [hparse, ofExcept_ok_bind] at h
  have hg := wellFormedGraph_of_accepted (parseWorkflowDefinition_eq_ok.mp hparse)
  obtain ⟨ordered, hok, horder⟩ := orderWorkflowNodes_spec hg
  rw [hok, ofExcept_ok_bind] at h
  have hdistinct : (ordered.map (·.id)).Nodup :=
    (horder.perm.map _).nodup_iff.mpr hg.node_ids_distinct
  have hnodes : ∀ {events : WorkerHistory} {out : Except JsError Record},
      Trace (executeNodes m definition ordered .empty m.input) events out →
      ∃ (attempts : List NodeAttempt) (rest : WorkerHistory),
        events = attempts.flatMap NodeAttempt.history ++ rest
        ∧ (∀ ev ∈ rest, ¬ UpdatesNode ev.op) ∧ (attempts.map (·.node.id)).Nodup
        ∧ ∀ a ∈ attempts, a.RunOf m := by
    intro events out hrun
    obtain ⟨attempts, rest, hsplit, hrest, hinitial, hattempts⟩ := executeNodes_attempts hrun
    refine ⟨attempts, rest, hsplit, hrest, ?_, hattempts⟩
    have hids := (hinitial.map (·.id)).sublist.nodup hdistinct
    rwa [List.map_map] at hids
  rcases trace_bind h with ⟨e, hrun, -⟩ | ⟨final, first, later, hrun, hlater, rfl⟩
  · exact hnodes hrun
  · cases hlater
    rw [List.append_nil]
    exact hnodes hrun

/-- A run of `executeWorkflowNodes` is made of one attempt for each node it
got to, and whatever else it did wrote to no row of a node. Of an attempt
that stored its output the outcome is exclusive if and only if the completion
was reported and the calls publishing the completed event succeed, or the
update that sets the row to `FAILED` has no effect either. -/
theorem executeWorkflowNodes_outcomes (execution : WorkflowExecution) (events : WorkerHistory)
    (out : Except JsError Record)
    (hinfallible : ∀ ev ∈ events, ev.op.Infallible → ∃ r, ev.reply = .ok r)
    (htrace : Trace (executeWorkflowNodes m execution) events out) :
    ∃ (attempts : List NodeAttempt) (rest : WorkerHistory),
      events = attempts.flatMap NodeAttempt.history ++ rest
      ∧ (∀ ev ∈ rest, ¬ UpdatesNode ev.op) ∧ (attempts.map (·.node.id)).Nodup
      ∧ ∀ a ∈ attempts, a.RunOf m ∧ ∀ output completedAt commit,
        ⟨.db (.updateNode a.nodeExecutionId (.succeeded output completedAt)), commit⟩ ∈ a.events →
        commit.applied = true →
        ∃ later, a.events
            = completionEvents m a.node a.nodeExecutionId a.input output completedAt commit ++ later
          ∧ (ExclusiveOutcome a.nodeExecutionId a.events
            ↔ CompletedCleanly m a.node a.nodeExecutionId a.input a.startedAt output completedAt
                commit later
              ∨ FailureRejected later) := by
  obtain ⟨attempts, rest, rfl, hrest, hdistinct, hattempts⟩ := executeWorkflowNodes_attempts htrace
  refine ⟨attempts, rest, rfl, hrest, hdistinct, fun a ha => ⟨hattempts a ha, ?_⟩⟩
  intro output completedAt commit hmem _
  refine nodeAttempt_exclusive_iff (fun ev hev => hinfallible ev ?_) (hattempts a ha).trace hmem
  have hhistory : ev ∈ a.history := List.mem_append_right _ hev
  exact List.mem_append_left _ (List.mem_flatMap.mpr ⟨a, ha, hhistory⟩)

end

/-- The event stored the output of a node. -/
def storesOutput (ev : WorkerEvent) : Bool :=
  ev.reply.applied && match ev.op with
    | .db (.updateNode _ (.succeeded _ _)) => true
    | _ => false

/-- An output that a run stored was stored by one of its attempts, in the row
of that attempt. -/
theorem exists_attempt_of_storesOutput [Runtime] {m : WorkflowExecutionRequestedMessage}
    {attempts : List NodeAttempt} {rest : WorkerHistory} {ev : WorkerEvent}
    (hinfallible : ∀ ev ∈ attempts.flatMap NodeAttempt.history ++ rest,
      ev.op.Infallible → ∃ r, ev.reply = .ok r)
    (hrest : ∀ ev ∈ rest, ¬ UpdatesNode ev.op) (hattempts : ∀ a ∈ attempts, a.RunOf m)
    (hev : ev ∈ attempts.flatMap NodeAttempt.history ++ rest) (hstores : storesOutput ev = true) :
    ∃ a ∈ attempts, ∃ output completedAt commit, commit.applied = true
      ∧ ⟨.db (.updateNode a.nodeExecutionId (.succeeded output completedAt)), commit⟩
        ∈ a.events := by
  obtain ⟨op, reply⟩ := ev
  unfold storesOutput at hstores
  rw [Bool.and_eq_true] at hstores
  obtain ⟨happlied, hop⟩ := hstores
  split at hop
  · rename_i id output completedAt hcall
    obtain rfl : op = _ := hcall
    have hupdates : UpdatesNode (.db (.updateNode id (.succeeded output completedAt))) :=
      ⟨_, _, rfl⟩
    rcases List.mem_append.mp hev with hmem | hmem
    · obtain ⟨a, ha, hhistory⟩ := List.mem_flatMap.mp hmem
      rcases List.mem_append.mp hhistory with hbefore | hown
      · exact absurd hupdates ((hattempts a ha).before _ hbefore)
      · obtain rfl := nodeAttempt_completes_own (fun ev hev => hinfallible ev
          (List.mem_append_left _ (List.mem_flatMap.mpr ⟨a, ha, List.mem_append_right _ hev⟩)))
          (hattempts a ha).trace hown
        exact ⟨a, ha, output, completedAt, reply, happlied, hown⟩
    · exact absurd hupdates (hrest _ hmem)
  · cases hop

/-- The theorem at the run in which every event finds room: the attempt that
stored the output of the node. -/
theorem executeWorkflowNodes_outcomes_default :
    ∃ (_ : Runtime) (events : WorkerHistory) (out : Except JsError Record)
      (attempts : List NodeAttempt) (rest : WorkerHistory),
      Trace (executeWorkflowNodes (newCommand defaultWorkflowDefinition)
        (newExecution defaultWorkflowDefinition)) events out
      ∧ events = attempts.flatMap NodeAttempt.history ++ rest
      ∧ ∃ a ∈ attempts, ∃ output completedAt commit later, commit.applied = true
        ∧ a.events = completionEvents (newCommand defaultWorkflowDefinition) a.node
            a.nodeExecutionId a.input output completedAt commit ++ later
        ∧ (ExclusiveOutcome a.nodeExecutionId a.events
          ↔ CompletedCleanly (newCommand defaultWorkflowDefinition) a.node a.nodeExecutionId
              a.input a.startedAt output completedAt commit later
            ∨ FailureRejected later) := by
  let _ : Runtime := .sample false
  obtain ⟨events, out, w, htrace, hreplays, hstores⟩ :=
    exists_trace_of_script (newRow defaultWorkflowDefinition) (fun _ => true) 40 0
      (p := executeWorkflowNodes (newCommand defaultWorkflowDefinition)
        (newExecution defaultWorkflowDefinition))
      (w := .empty) (P := fun events _ => events.any storesOutput = true) (by decide +kernel)
  have hinfallible : ∀ ev ∈ events, ev.op.Infallible → ∃ r, ev.reply = .ok r :=
    replays_events (fun _ _ _ _ hexec => Environment.exec_infallible hexec) hreplays
  obtain ⟨attempts, rest, rfl, hrest, -, hattempts⟩ :=
    executeWorkflowNodes_outcomes _ _ _ hinfallible htrace
  obtain ⟨ev, hev, hstores⟩ := List.any_eq_true.mp hstores
  obtain ⟨a, ha, output, completedAt, commit, happlied, hmem⟩ := exists_attempt_of_storesOutput
    hinfallible hrest (fun a ha => (hattempts a ha).1) hev hstores
  obtain ⟨later, hsplit, hiff⟩ := (hattempts a ha).2 output completedAt commit hmem happlied
  exact ⟨_, _, out, attempts, rest, htrace, rfl, a, ha, output, completedAt, commit, later,
    happlied, hsplit, hiff⟩

/-- A run of the default definition in which the broker's buffer is full when
the completed event is published: the row is `FAILED` with the output the
same attempt has stored, and a failed event is in the outbox. -/
theorem executeWorkflowNodes_failed_with_output :
    ∃ (_ : Runtime) (events : WorkerHistory) (out : Except JsError Record) (w : World),
      Trace (executeWorkflowNodes (newCommand defaultWorkflowDefinition)
        (newExecution defaultWorkflowDefinition)) events out
      ∧ Replays (scriptEnvironment (newRow defaultWorkflowDefinition)).exec .empty events w
      ∧ (∃ row ∈ w.store.nodeExecutions, row.status = .failed ∧ row.output.isSome)
      ∧ ∃ message ∈ w.store.outbox, message.routingKey = .nodeExecutionFailed := by
  exact ⟨.sample false, exists_trace_of_script _ (· ≠ 14) 40 0 (by decide +kernel)⟩

end FlowPilot
