import FlowPilot.Contracts.Encoding
import FlowPilot.Lib.Dataflow
import FlowPilot.Worker.ConditionAction
import FlowPilot.Worker.FinalOutput

/-!
# What a workflow means

A definition denotes a dataflow network: a node reads the outputs of its
predecessors and yields what its executor returns on them, or throws what
that throws (`meaning`). Nothing in this mentions an order of the nodes, or
the arrays the definition is written in (`meaning_perm`).

`executeWorkflowNodes` is adequate for it
(`executeWorkflowNodes_adequate`): when only executors fail, an execution
completes exactly if every node yields an output, and otherwise it ends with
the error of a node that throws; the inputs it hands out and the results it
records are those of the network. The loop runs the network
(`executeNodes_runs`); the general part of the argument is `Dataflow.run_spec`.
-/

namespace FlowPilot

open Prog hiding pure throw bind tryCatch

/-! ## The network of a definition -/

/-- The executor `executeWorkflowNode` dispatches to, where `exec` gives the
executors of the other nodes, which may throw. -/
def executorOf (exec : WorkflowNode → Record → Except JsError Record) (node : WorkflowNode)
    (input : Record) : Except JsError Record :=
  if node.type = .manualTrigger then .ok input else exec node input

section

variable (d : WorkflowDefinition) (input : Record)

/-- The output of the node with an id. -/
def outputOf (outputs : WorkflowNode → Record) (id : String) : Record :=
  ((d.nodes.find? (·.id = id)).map outputs).getD []

/-- The nodes with an edge to `node`. -/
def predecessors (node : WorkflowNode) : Set WorkflowNode :=
  {p | p ∈ d.nodes ∧ ∃ edge ∈ incomingEdges d node, edge.sourceNodeId = p.id}

/-- The input of a node depends on the outputs of its predecessors only. -/
theorem nodeInput_outputOf_congr {node : WorkflowNode} {outputs outputs' : WorkflowNode → Record}
    (h : ∀ p ∈ predecessors d node, outputs p = outputs' p) :
    nodeInput d input (outputOf d outputs) node = nodeInput d input (outputOf d outputs') node := by
  refine nodeInput_congr fun edge hedge => ?_
  unfold outputOf
  cases hfind : d.nodes.find? (·.id = edge.sourceNodeId) with
  | none => rfl
  | some p =>
      have hid : p.id = edge.sourceNodeId := by simpa using List.find?_some hfind
      exact congrArg (fun v => (some v).getD [])
        (h p ⟨List.mem_of_find?_eq_some hfind, edge, hedge, hid.symm⟩)

/-- What a definition means on an input. -/
def meaning (exec : WorkflowNode → Record → Except JsError Record) :
    Dataflow WorkflowNode Record JsError where
  sources := predecessors d
  step node outputs := executorOf exec node (nodeInput d input (outputOf d outputs) node)
  step_congr {node _ _} h := congrArg (executorOf exec node) (nodeInput_outputOf_congr d input h)

/-- The input of a node according to the network. -/
def Given (exec : WorkflowNode → Record → Except JsError Record) (node : WorkflowNode)
    (given : Record) : Prop :=
  ∃ outputs, (meaning d input exec).Feeds node outputs
    ∧ given = nodeInput d input (outputOf d outputs) node

end

section

variable {d : WorkflowDefinition} {input : Record}
  {exec : WorkflowNode → Record → Except JsError Record}

/-- The node with the id of a node. -/
theorem find?_node (hg : WellFormedGraph d) {node : WorkflowNode} (hnode : node ∈ d.nodes) :
    d.nodes.find? (·.id = node.id) = some node := by
  obtain ⟨first, hfirst⟩ : ∃ first, d.nodes.find? (·.id = node.id) = some first :=
    Option.isSome_iff_exists.mp (List.find?_isSome.mpr ⟨node, hnode, by simp⟩)
  have hid : first.id = node.id := by simpa using List.find?_some hfirst
  rw [hfirst, List.inj_on_of_nodup_map hg.node_ids_distinct
    (List.mem_of_find?_eq_some hfirst) hnode hid]

theorem outputOf_node (hg : WellFormedGraph d) {node : WorkflowNode} (hnode : node ∈ d.nodes)
    (outputs : WorkflowNode → Record) : outputOf d outputs node.id = outputs node := by
  rw [outputOf, find?_node hg hnode]
  rfl

theorem Given.unique {node : WorkflowNode} {given given' : Record}
    (h : Given d input exec node given) (h' : Given d input exec node given') : given = given' := by
  obtain ⟨outputs, hfeeds, rfl⟩ := h
  obtain ⟨outputs', hfeeds', rfl⟩ := h'
  exact nodeInput_outputOf_congr d input fun p hp => (hfeeds p hp).unique (hfeeds' p hp)

/-- An execution order is a schedule of the network. -/
theorem ExecutionOrder.schedule (hg : WellFormedGraph d) {ordered : List WorkflowNode}
    (horder : ExecutionOrder d ordered) : (meaning d input exec).Schedule ordered where
  nodup := ((horder.perm.map WorkflowNode.id).nodup_iff.mpr hg.node_ids_distinct).of_map
  sources_before {before after node} hsplit := by
    rintro p ⟨hp, edge, hedge, hid⟩
    obtain ⟨q, hq, hqid⟩ :=
      List.mem_map.mp (horder.source_mem_before hg hsplit edge hedge)
    have hqd : q ∈ d.nodes := horder.perm.subset (by simp [hsplit, hq])
    exact List.inj_on_of_nodup_map hg.node_ids_distinct hqd hp (hqid.trans hid) ▸ hq

/-! ### Permuted arrays -/

section

variable {d' : WorkflowDefinition} (hg : WellFormedGraph d) (hg' : WellFormedGraph d')
  (hnodes : d'.nodes.Perm d.nodes) (hedges : d'.edges.Perm d.edges)
include hg hg' hnodes hedges

theorem nodeInput_outputOf_perm (node : WorkflowNode) (outputs : WorkflowNode → Record) :
    nodeInput d' input (outputOf d' outputs) node
      = nodeInput d input (outputOf d outputs) node := by
  refine (nodeInput_perm hg (hedges.symm.filter _) fun edge hedge => ?_).symm
  obtain ⟨p, hp, hid⟩ := (hg.endpoints edge (List.mem_of_mem_filter hedge)).1
  rw [← hid, outputOf_node hg hp, outputOf_node hg' (hnodes.mem_iff.mpr hp)]

/-- The order in which nodes and edges are written down does not matter. -/
theorem meaning_perm {node : WorkflowNode} {output : Record}
    (h : (meaning d input exec).Yields node output) :
    (meaning d' input exec).Yields node output := by
  induction h with
  | @intro node output outputs _ hstep ih =>
      refine .intro outputs ?_ ?_
      · rintro p ⟨hp, edge, hedge, hid⟩
        exact ih p ⟨hnodes.subset hp, edge, (hedges.filter _).subset hedge, hid⟩
      · rw [← hstep]
        exact congrArg (executorOf exec node)
          (nodeInput_outputOf_perm hg hg' hnodes hedges node outputs)

theorem feeds_perm {node : WorkflowNode} {outputs : WorkflowNode → Record}
    (h : (meaning d input exec).Feeds node outputs) :
    (meaning d' input exec).Feeds node outputs := by
  rintro p ⟨hp, edge, hedge, hid⟩
  exact meaning_perm hg hg' hnodes hedges
    (h p ⟨hnodes.subset hp, edge, (hedges.filter _).subset hedge, hid⟩)

theorem throws_perm {node : WorkflowNode} {e : JsError}
    (h : (meaning d input exec).Throws node e) : (meaning d' input exec).Throws node e := by
  obtain ⟨outputs, hfeeds, hstep⟩ := h
  refine ⟨outputs, feeds_perm hg hg' hnodes hedges hfeeds, ?_⟩
  rw [← hstep]
  exact congrArg (executorOf exec node)
    (nodeInput_outputOf_perm hg hg' hnodes hedges node outputs)

theorem given_perm {node : WorkflowNode} {given : Record} (h : Given d input exec node given) :
    Given d' input exec node given := by
  obtain ⟨outputs, hfeeds, rfl⟩ := h
  exact ⟨outputs, feeds_perm hg hg' hnodes hedges hfeeds,
    (nodeInput_outputOf_perm hg hg' hnodes hedges node outputs).symm⟩

end

end

/-! ## Runs in which only executors fail -/

/-- The executor answered or threw as `exec` says; any other call
succeeded. -/
def AnswersAs (exec : WorkflowNode → Record → Except JsError Record) : WorkerEvent → Prop
  | ⟨.executeWorkflowNode node context, reply⟩ => reply.result = executorOf exec node context.input
  | ev => CallSucceeded ev

/-- A call that neither runs an executor nor ends the row of a node. -/
def SideOp : WorkerOp → Prop
  | .db (.updateNode _ _) => False
  | op => RecordingOp op

/-- How the rows of nodes were ended, in turn. -/
def nodeResults (events : List WorkerEvent) : List (Except WorkerFailure Record) :=
  events.filterMap fun ev =>
    match ev.op with
    | .db (.updateNode _ (.succeeded output _)) => some (.ok output)
    | .db (.updateNode _ (.failed failure _)) => some (.error failure)
    | _ => none

@[simp] theorem nodeResults_append (events rest : List WorkerEvent) :
    nodeResults (events ++ rest) = nodeResults events ++ nodeResults rest := by
  simp [nodeResults]

theorem SideOp.recording {op : WorkerOp} (h : SideOp op) : RecordingOp op := by
  cases op with
  | db c =>
      cases c with
      | updateNode _ _ => exact h.elim
      | _ => exact h
  | _ => exact h

theorem EventOp.side {routingKey : FlowPilotRoutingKey} {op : WorkerOp}
    (h : EventOp routingKey op) : SideOp op := by
  cases op with
  | db c =>
      cases c with
      | updateNode _ _ => exact h.elim
      | _ => exact h.recording
  | _ => exact h.recording

section

variable {exec : WorkflowNode → Record → Except JsError Record} {events : List WorkerEvent}

theorem nodeResults_side (h : ∀ ev ∈ events, SideOp ev.op) : nodeResults events = [] := by
  refine List.filterMap_eq_nil_iff.mpr fun ev hev => ?_
  obtain ⟨op, reply⟩ := ev
  have hop := h _ hev
  cases op with
  | db c =>
      cases c with
      | updateNode _ _ => exact hop.elim
      | _ => rfl
  | _ => rfl

/-- When calls other than the executors succeed, none of them failed. -/
theorem not_someCallFailed_of_answersAs (hops : ∀ ev ∈ events, RecordingOp ev.op)
    (hall : ∀ ev ∈ events, AnswersAs exec ev) : ¬ SomeCallFailed events := by
  rintro ⟨⟨op, reply⟩, hev, hfailed⟩
  have hanswer := hall _ hev
  cases op with
  | executeWorkflowNode node context => exact (hops _ hev).elim
  | _ => exact hfailed hanswer

end

/-- Every complete run of the function in which only executors fail, and fail
as `exec` says, ends as `P` says, which is told the executor calls and the
results recorded on the way. -/
def Does {α : Type} (exec : WorkflowNode → Record → Except JsError Record) (p : Worker α)
    (P : Except JsError α → List (WorkflowNode × Record) →
      List (Except WorkerFailure Record) → Prop) : Prop :=
  ∀ events out, Trace p events out → (∀ ev ∈ events, AnswersAs exec ev) →
    P out (executorCalls events) (nodeResults events)

section

variable {exec : WorkflowNode → Record → Except JsError Record} {α β : Type} {p : Worker α}
  {P : Except JsError α → List (WorkflowNode × Record) →
    List (Except WorkerFailure Record) → Prop}

theorem Does.bind {f : α → Worker β} {Q : Except JsError β → List (WorkflowNode × Record) →
      List (Except WorkerFailure Record) → Prop} (hp : Does exec p P)
    (hf : ∀ a calls results, P (.ok a) calls results →
      Does exec (f a) fun out calls' results' => Q out (calls ++ calls') (results ++ results'))
    (he : ∀ e calls results, P (.error e) calls results → Q (.error e) calls results) :
    Does exec (p >>= f) Q := by
  intro events out htrace hall
  rcases trace_bind htrace with ⟨e, hthrew, rfl⟩ | ⟨a, first, rest, hfirst, hrest, hsplit⟩
  · exact he e _ _ (hp _ _ hthrew hall)
  · rw [hsplit] at hall ⊢
    obtain ⟨hall₁, hall₂⟩ := List.forall_mem_append.mp hall
    rw [executorCalls_append, nodeResults_append]
    exact hf a _ _ (hp _ _ hfirst hall₁) _ _ hrest hall₂

theorem Does.tryCatch {handler : JsError → Worker α} {Q : Except JsError α →
      List (WorkflowNode × Record) → List (Except WorkerFailure Record) → Prop}
    (hp : Does exec p P)
    (hok : ∀ a calls results, P (.ok a) calls results → Q (.ok a) calls results)
    (hhandler : ∀ e calls results, P (.error e) calls results →
      Does exec (handler e) fun out calls' results' =>
        Q out (calls ++ calls') (results ++ results')) :
    Does exec (p.tryCatch handler) Q := by
  intro events out htrace hall
  rcases trace_tryCatch htrace with ⟨a, hreturned, rfl⟩ | ⟨e, first, rest, hfirst, hrest, hsplit⟩
  · exact hok a _ _ (hp _ _ hreturned hall)
  · rw [hsplit] at hall ⊢
    obtain ⟨hall₁, hall₂⟩ := List.forall_mem_append.mp hall
    rw [executorCalls_append, nodeResults_append]
    exact hhandler e _ _ (hp _ _ hfirst hall₁) _ _ hrest hall₂

/-- One call. -/
theorem does_call {op : WorkerOp} {P : Except JsError op.Result → List (WorkflowNode × Record) →
      List (Except WorkerFailure Record) → Prop}
    (h : ∀ reply, AnswersAs exec ⟨op, reply⟩ →
      P reply.result (executorCalls [⟨op, reply⟩]) (nodeResults [⟨op, reply⟩])) :
    Does exec (call op) P := by
  intro events out htrace hall
  obtain ⟨reply, rfl, rfl⟩ := trace_perform_inv htrace
  exact h reply (hall _ List.mem_cons_self)

/-- A function that only reports. -/
theorem Returns.does {R : α → Prop} (hp : Returns SideOp p R) :
    Does exec p fun out calls results => (∃ a, out = .ok a ∧ R a) ∧ calls = [] ∧ results = [] := by
  intro events out htrace hall
  obtain ⟨hops, hout⟩ := spec_trace hp htrace
  have hrecording : ∀ ev ∈ events, RecordingOp ev.op := fun ev hev => (hops ev hev).recording
  refine ⟨?_, executorCalls_recording hrecording, nodeResults_side hops⟩
  cases out with
  | ok a => exact ⟨a, rfl, hout⟩
  | error e => exact absurd hout (not_someCallFailed_of_answersAs hrecording hall)

/-- In front of something, it does not show. -/
theorem Returns.does_bind {R : α → Prop} {f : α → Worker β} {Q : Except JsError β →
      List (WorkflowNode × Record) → List (Except WorkerFailure Record) → Prop}
    (hp : Returns SideOp p R) (hf : ∀ a, R a → Does exec (f a) Q) : Does exec (p >>= f) Q := by
  refine hp.does.bind (fun a calls results h => ?_) (fun e calls results h => ?_)
  · obtain ⟨⟨_, heq, ha⟩, rfl, rfl⟩ := h
    obtain rfl := Except.ok.inj heq
    exact hf a ha
  · obtain ⟨⟨_, heq, -⟩, -⟩ := h
    cases heq

theorem does_mono {Q : Except JsError α → List (WorkflowNode × Record) →
      List (Except WorkerFailure Record) → Prop} (hp : Does exec p P)
    (h : ∀ out calls results, P out calls results → Q out calls results) : Does exec p Q :=
  fun events out htrace hall => h _ _ _ (hp events out htrace hall)

end

/-! ## One node -/

section

variable {exec : WorkflowNode → Record → Except JsError Record}

theorem newDate_side : ThrowsOnFailure SideOp newDate := throwsOnFailure_call trivial

theorem db_side (c : DbCall) (h : SideOp (.db c)) : ThrowsOnFailure SideOp (db c) :=
  throwsOnFailure_call h

theorem recordAiTrace_side (m : WorkflowExecutionRequestedMessage)
    (data : WorkflowAiTraceCreateData) : ThrowsOnFailure SideOp (recordAiTrace m data) :=
  ((db_side (.createAiTrace data) trivial).bind fun _ =>
    (publishAiTraceCreatedEvent_exact m _).throwsOnFailure fun _ h => h.side).tryCatch_pure

/-- The row of a node is ended. -/
theorem does_updateNode (id : String) (data : NodeExecutionUpdate) :
    Does exec (db (.updateNode id data)) fun out calls results =>
      out = .ok () ∧ calls = [] ∧ results = nodeResults [⟨.db (.updateNode id data), .ok ()⟩] := by
  refine does_call fun reply hanswer => ?_
  cases reply with
  | ok _ => exact ⟨rfl, rfl, rfl⟩
  | lost e => exact hanswer.elim
  | failed e => exact hanswer.elim

variable [Runtime] (m : WorkflowExecutionRequestedMessage) (node : WorkflowNode)
  (nodeExecutionId : String) (input : Record) (startedAt : Int)

/-- The `try` block. -/
theorem nodeSuccessPath_does :
    Does exec (nodeSuccessPath m node nodeExecutionId input startedAt) fun out calls results =>
      out = executorOf exec node input ∧ calls = [(node, input)]
        ∧ results = match out with
          | .ok output => [.ok output]
          | .error _ => [] := by
  have hexecute : Does exec (executeNode node ⟨input, m, nodeExecutionId⟩)
      fun out calls results =>
        out = executorOf exec node input ∧ calls = [(node, input)] ∧ results = [] :=
    does_call fun reply hanswer => ⟨hanswer, rfl, rfl⟩
  refine hexecute.bind (fun output calls results h => ?_) (fun e calls results h => ?_)
  · obtain ⟨hout, rfl, rfl⟩ := h
    refine newDate_side.does_bind fun completedAt _ => ?_
    refine (does_updateNode nodeExecutionId _).bind (fun _ calls results h => ?_)
      (fun e calls results h => by cases h.1)
    obtain ⟨-, rfl, rfl⟩ := h
    have htrace : ThrowsOnFailure SideOp (recordAiTraceForSuccessfulNode m node nodeExecutionId
        input output startedAt completedAt) := by
      unfold recordAiTraceForSuccessfulNode
      split
      · exact recordAiTrace_side m _
      · trivial
    refine htrace.does_bind fun _ _ => ?_
    have hpublish := (publishNodeCompletedEvent_exact m node nodeExecutionId output startedAt
      completedAt).throwsOnFailure fun _ h => EventOp.side h
    refine hpublish.does_bind fun _ _ => ?_
    refine does_mono (returns_pure (R := (· = output)) rfl).does fun out calls results h => ?_
    obtain ⟨⟨_, rfl, rfl⟩, rfl, rfl⟩ := h
    exact ⟨hout, rfl, rfl⟩
  · exact h

/-- The `catch` block. -/
theorem nodeFailurePath_does (error : JsError) :
    Does exec (nodeFailurePath m node nodeExecutionId input startedAt error)
      fun out calls results => out = .error error ∧ calls = []
        ∧ results = [.error (normalizeWorkerFailure error)] := by
  refine newDate_side.does_bind fun failedAt _ => ?_
  refine (does_updateNode nodeExecutionId _).bind (fun _ calls results h => ?_)
    (fun e calls results h => by cases h.1)
  obtain ⟨-, rfl, rfl⟩ := h
  have htrace : ThrowsOnFailure SideOp (recordAiTraceForFailedNode m node nodeExecutionId input
      (normalizeWorkerFailure error) startedAt failedAt) := by
    unfold recordAiTraceForFailedNode
    split
    · exact recordAiTrace_side m _
    · trivial
  refine htrace.does_bind fun _ _ => ?_
  have hpublish := (publishNodeFailedEvent_exact m node nodeExecutionId
    (normalizeWorkerFailure error) failedAt).throwsOnFailure fun _ h => EventOp.side h
  refine hpublish.does_bind fun _ _ events out hthrow _ => ?_
  cases hthrow
  exact ⟨rfl, rfl, rfl⟩

/-- An iteration ends as the executor does, and records that. -/
theorem runNode_does : Does exec (runNode m node input) fun out calls results =>
    out = executorOf exec node input ∧ calls = [(node, input)]
      ∧ results = [out.mapError normalizeWorkerFailure] := by
  refine newDate_side.does_bind fun startedAt _ => ?_
  refine (db_side (.upsertRunningNode m node input startedAt) trivial).does_bind fun row _ => ?_
  have hpublish := (publishNodeStartedEvent_exact m node row.id input startedAt).throwsOnFailure
    fun _ h => EventOp.side h
  refine hpublish.does_bind fun _ _ => ?_
  refine (nodeSuccessPath_does m node row.id input startedAt).tryCatch
    (fun output calls results h => h) (fun error calls results h => ?_)
  obtain ⟨hout, rfl, rfl⟩ := h
  refine does_mono (nodeFailurePath_does m node row.id input startedAt error)
    fun out calls results h => ?_
  obtain ⟨rfl, rfl, rfl⟩ := h
  exact ⟨hout, rfl, rfl⟩

end

/-! ## The loop -/

/-- What is recorded of a node is what it comes to. -/
def Records (net : Dataflow WorkflowNode Record JsError) (node : WorkflowNode) :
    Except WorkerFailure Record → Prop
  | .ok output => net.Yields node output
  | .error failure => ∃ e, net.Throws node e ∧ failure = normalizeWorkerFailure e

/-- A node comes to one thing only. -/
theorem Records.unique {net : Dataflow WorkflowNode Record JsError} {node : WorkflowNode}
    {r r' : Except WorkerFailure Record} (h : Records net node r) (h' : Records net node r') :
    r = r' := by
  cases r with
  | ok output =>
      cases r' with
      | ok output' => exact congrArg Except.ok (Dataflow.Yields.unique h h')
      | error failure' =>
          obtain ⟨e, hthrows, -⟩ := h'
          exact absurd h hthrows.not_yields
  | error failure =>
      obtain ⟨e, hthrows, rfl⟩ := h
      cases r' with
      | ok output' => exact absurd h' hthrows.not_yields
      | error failure' =>
          obtain ⟨e', hthrows', rfl⟩ := h'
          rw [hthrows.unique hthrows']

theorem records_perm {d d' : WorkflowDefinition} {input : Record} (hg : WellFormedGraph d)
    (hg' : WellFormedGraph d') (hnodes : d'.nodes.Perm d.nodes) (hedges : d'.edges.Perm d.edges)
    {exec : WorkflowNode → Record → Except JsError Record} {node : WorkflowNode}
    {r : Except WorkerFailure Record}
    (h : Records (meaning d input exec) node r) : Records (meaning d' input exec) node r := by
  cases r with
  | ok output => exact meaning_perm hg hg' hnodes hedges h
  | error failure =>
      obtain ⟨e, hthrows, rfl⟩ := h
      exact ⟨e, throws_perm hg hg' hnodes hedges hthrows, rfl⟩

/-- Between two iterations: the nodes of `before` have been evaluated, their
outputs are recorded, and as long as only triggers have run the current input
is still the command's. -/
structure LoopInv (net : Dataflow WorkflowNode Record JsError) (input : Record)
    (before : List WorkflowNode) (nodeOutputs : JsMap Record) (currentInput : Record)
    (values : WorkflowNode → Record) : Prop where
  settled : net.Settled before values
  recorded : ∀ p ∈ before, nodeOutputs.get? p.id = some (values p)
  current : (∀ p ∈ before, p.type = .manualTrigger) → currentInput = input

/-- In front of a trigger stand only triggers. -/
theorem ExecutionOrder.triggers_before {d : WorkflowDefinition} {ordered : List WorkflowNode}
    (horder : ExecutionOrder d ordered) {before after : List WorkflowNode} {node : WorkflowNode}
    (hsplit : ordered = before ++ node :: after) (htype : node.type = .manualTrigger) :
    ∀ p ∈ before, p.type = .manualTrigger := by
  intro p hp
  by_contra hp'
  obtain ⟨i, hi⟩ := List.mem_iff_getElem?.mp hp
  have hlt : i < before.length := (List.getElem?_eq_some_iff.mp hi).1
  have hfirst := horder.triggers_first before.length i node p (by simp [hsplit])
    (by rw [hsplit, List.getElem?_append_left hlt, hi]) htype hp'
  omega

section

open scoped Classical

variable {d : WorkflowDefinition} {input : Record}
  {exec : WorkflowNode → Record → Except JsError Record} {ordered before after : List WorkflowNode}
  {node : WorkflowNode} {nodeOutputs : JsMap Record} {currentInput : Record}
  {values : WorkflowNode → Record}

/-- The next node gets the input of the network. -/
theorem LoopInv.next_input (hg : WellFormedGraph d) (horder : ExecutionOrder d ordered)
    (hsplit : ordered = before ++ node :: after)
    (hinv : LoopInv (meaning d input exec) input before nodeOutputs currentInput values) :
    getNodeInput node d nodeOutputs currentInput
      = nodeInput d input (outputOf d values) node := by
  have hnode : node ∈ d.nodes := horder.perm.subset (by simp [hsplit])
  refine getNodeInput_eq (fun edge hedge => ?_) (fun hnil => ?_)
  · obtain ⟨p, hp, hid⟩ := List.mem_map.mp (horder.source_mem_before hg hsplit edge hedge)
    have hmem : p ∈ d.nodes := horder.perm.subset (by simp [hsplit, hp])
    rw [← hid, outputOf_node hg hmem, hinv.recorded p hp]
  · exact hinv.current (horder.triggers_before hsplit ((incomingEdges_eq_nil hg hnode).mp hnil))

/-- An iteration whose executor returned keeps the invariant. -/
theorem LoopInv.next (hg : WellFormedGraph d) (horder : ExecutionOrder d ordered)
    (hsplit : ordered = before ++ node :: after)
    (hinv : LoopInv (meaning d input exec) input before nodeOutputs currentInput values)
    {output : Record} (hstep : (meaning d input exec).step node values = .ok output) :
    LoopInv (meaning d input exec) input (before ++ [node]) (nodeOutputs.set node.id output) output
      (Function.update values node output) where
  settled :=
    hinv.settled.next (horder.schedule hg) hsplit
      (((hinv.settled.feeds (horder.schedule hg) hsplit).yields_iff).mpr hstep)
  recorded p hp := by
    by_cases hpn : p = node
    · subst hpn
      simp
    · have hbefore : p ∈ before := by simpa [hpn] using hp
      have hnodup := (horder.perm.map WorkflowNode.id).nodup_iff.mpr hg.node_ids_distinct
      have hid : ¬ p.id = node.id := fun hid => hpn <| List.inj_on_of_nodup_map hnodup
        (by simp [hsplit, hbefore]) (by simp [hsplit]) hid
      simp [hid, hpn, hinv.recorded p hbefore]
  current hall := by
    -- the node is a trigger, and hands on what it was given
    have htype : node.type = .manualTrigger := hall node (by simp)
    have hcurrent := hinv.current fun p hp => hall p (List.mem_append_left _ hp)
    have hnode : node ∈ d.nodes := horder.perm.subset (by simp [hsplit])
    have hout : executorOf exec node (nodeInput d input (outputOf d values) node) = .ok output :=
      hstep
    rw [executorOf, if_pos htype, nodeInput, (incomingEdges_eq_nil hg hnode).mpr htype] at hout
    exact (Except.ok.inj hout).symm

/-- How the loop ends when the network ran as `ran`. -/
def LoopEnds (nodes : List WorkflowNode) (currentInput : Record)
    (ran : (WorkflowNode → Record) × Option (WorkflowNode × JsError)) (out : Except JsError Record)
    (called : List WorkflowNode) : Prop :=
  match ran.2 with
  | none => out = .ok ((nodes.getLast?.map ran.1).getD currentInput) ∧ called = nodes
  | some (node, e) => out = .error e ∧ ∃ first rest, nodes = first ++ node :: rest
      ∧ called = first ++ [node]

theorem LoopEnds.cons {net : Dataflow WorkflowNode Record JsError} {output : Record}
    (hstep : net.step node values = .ok output) {nodes : List WorkflowNode}
    {out : Except JsError Record} {called : List WorkflowNode}
    (h : LoopEnds nodes output (net.run nodes (Function.update values node output)) out called) :
    LoopEnds (node :: nodes) currentInput (net.run (node :: nodes) values) out
      (node :: called) := by
  rw [Dataflow.run_cons hstep]
  unfold LoopEnds at h ⊢
  split at h
  · obtain ⟨rfl, rfl⟩ := h
    refine ⟨congrArg Except.ok ?_, rfl⟩
    cases called with
    | nil => simp [Dataflow.run]
    | cons next called => simp [List.getLast?_eq_some_getLast]
  · obtain ⟨rfl, first, rest, rfl, rfl⟩ := h
    exact ⟨rfl, node :: first, rest, rfl, rfl⟩

/-- The loop runs the network. -/
theorem executeNodes_runs [Runtime] (m : WorkflowExecutionRequestedMessage)
    (hg : WellFormedGraph d) (horder : ExecutionOrder d ordered) :
    ∀ {nodes before : List WorkflowNode} {nodeOutputs : JsMap Record} {currentInput : Record}
      {values : WorkflowNode → Record}, ordered = before ++ nodes →
      LoopInv (meaning d m.input exec) m.input before nodeOutputs currentInput values →
      Does exec (executeNodes m d nodes nodeOutputs currentInput) fun out calls results =>
        LoopEnds nodes currentInput ((meaning d m.input exec).run nodes values) out
          (calls.map (·.1))
        ∧ (∀ call ∈ calls, Given d m.input exec call.1 call.2)
        ∧ List.Forall₂ (Records (meaning d m.input exec)) (calls.map (·.1)) results
  | [], before, nodeOutputs, currentInput, values, _, _ => by
      intro events out htrace _
      cases htrace
      exact ⟨⟨rfl, rfl⟩, by simp [executorCalls], by simp [executorCalls, nodeResults]⟩
  | node :: nodes, before, nodeOutputs, currentInput, values, hsplit, hinv => by
      have hfeeds := hinv.settled.feeds (horder.schedule hg) hsplit
      have hgiven := hinv.next_input hg horder hsplit
      refine (runNode_does m node _).bind (fun output calls results h => ?_)
        (fun e calls results h => ?_)
      · obtain ⟨hout, rfl, rfl⟩ := h
        rw [hgiven] at hout ⊢
        have hstep : (meaning d m.input exec).step node values = .ok output := hout.symm
        refine does_mono (executeNodes_runs m hg horder (by simpa using hsplit)
          (hinv.next hg horder hsplit hstep)) fun out calls results h => ?_
        obtain ⟨hends, hgivens, hrecords⟩ := h
        refine ⟨hends.cons hstep, ?_, .cons (hfeeds.yields_iff.mpr hstep) hrecords⟩
        rintro call (_ | ⟨_, hcall⟩)
        · exact ⟨values, hfeeds, rfl⟩
        · exact hgivens call hcall
      · obtain ⟨hout, rfl, rfl⟩ := h
        rw [hgiven] at hout ⊢
        have hstep : (meaning d m.input exec).step node values = .error e := hout.symm
        have hthrows := hfeeds.throws_iff.mpr hstep
        refine ⟨?_, ?_, .cons ⟨e, hthrows, rfl⟩ .nil⟩
        · simp only [LoopEnds, Dataflow.run, hstep]
          exact ⟨trivial, [], nodes, rfl, rfl⟩
        · rintro call (_ | ⟨_, hcall⟩)
          · exact ⟨values, hfeeds, rfl⟩
          · cases hcall

end

/-! ## Adequacy -/

/-- A complete run in which only executors fail: those of the nodes as `exec`
says. -/
structure ExecutorRun [Runtime] (exec : WorkflowNode → Record → Except JsError Record)
    (m : WorkflowExecutionRequestedMessage) (execution : WorkflowExecution)
    (events : List WorkerEvent) (out : Except JsError Record) : Prop where
  trace : Trace (executeWorkflowNodes m execution) events out
  answers : ∀ ev ∈ events, AnswersAs exec ev

section

variable [Runtime] {exec : WorkflowNode → Record → Except JsError Record}
  {m : WorkflowExecutionRequestedMessage} {execution : WorkflowExecution} {d : WorkflowDefinition}
  {events : List WorkerEvent} {out : Except JsError Record}

/-- On an accepted definition, the run is one of the loop over an execution
order. -/
theorem ExecutorRun.loop
    (haccept : workflowDefinitionSchema (some execution.workflowVersion.definition) = .ok d)
    (hsim : simulatedWorkflowFailure m.input = none)
    (hrun : ExecutorRun exec m execution events out) :
    ∃ ordered, ExecutionOrder d ordered ∧ ∃ out',
      Trace (executeNodes m d ordered .empty m.input) events out'
      ∧ out = out'.map (executionOutput d.nodes.length) := by
  obtain ⟨ordered, hordered, horder⟩ :=
    orderWorkflowNodes_spec (wellFormedGraph_of_accepted haccept)
  refine ⟨ordered, horder, ?_⟩
  have htrace := hrun.trace
  unfold executeWorkflowNodes assertNoSimulatedWorkflowFailure at htrace
  rw [parseWorkflowDefinition_eq_ok.mpr haccept] at htrace
  simp only [hsim, ofExcept_ok_bind, hordered] at htrace
  rcases trace_bind htrace with ⟨e, hthrew, rfl⟩ | ⟨final, first, rest, hfirst, hrest, rfl⟩
  · exact ⟨_, hthrew, rfl⟩
  · cases hrest
    exact ⟨_, by simpa using hfirst, by rw [horder.perm.length_eq]; rfl⟩

/-- All nodes were called and yield, or a first one throws. -/
def EndsAlong (net : Dataflow WorkflowNode Record JsError) (ordered called : List WorkflowNode)
    (out : Except JsError Record) : Prop :=
  (called = ordered ∧ (∀ node ∈ ordered, ∃ output, net.Yields node output)
    ∧ ∃ last output, ordered.getLast? = some last ∧ net.Yields last output
      ∧ out = .ok (executionOutput ordered.length output))
  ∨ ∃ before node after e, ordered = before ++ node :: after ∧ called = before ++ [node]
    ∧ (∀ p ∈ before, ∃ output, net.Yields p output) ∧ net.Throws node e ∧ out = .error e

open scoped Classical in
/-- How the run goes along an execution order. -/
theorem ExecutorRun.endsAlong
    (haccept : workflowDefinitionSchema (some execution.workflowVersion.definition) = .ok d)
    (hsim : simulatedWorkflowFailure m.input = none)
    (hrun : ExecutorRun exec m execution events out) :
    (∃ ordered, ExecutionOrder d ordered
      ∧ EndsAlong (meaning d m.input exec) ordered ((executorCalls events).map (·.1)) out)
    ∧ (∀ call ∈ executorCalls events, Given d m.input exec call.1 call.2)
    ∧ List.Forall₂ (Records (meaning d m.input exec)) ((executorCalls events).map (·.1))
        (nodeResults events) := by
  have hg := wellFormedGraph_of_accepted haccept
  obtain ⟨ordered, horder, out', htrace, rfl⟩ := hrun.loop haccept hsim
  have hschedule : (meaning d m.input exec).Schedule ordered := horder.schedule hg
  have hsettled : (meaning d m.input exec).Settled [] fun _ => [] :=
    fun p hp => absurd hp List.not_mem_nil
  have hstart : LoopInv (meaning d m.input exec) m.input [] .empty m.input fun _ => [] :=
    { settled := hsettled
      recorded := fun p hp => absurd hp List.not_mem_nil
      current := fun _ => rfl }
  obtain ⟨hends, hgivens, hrecords⟩ :=
    executeNodes_runs m hg horder rfl hstart events out' htrace hrun.answers
  refine ⟨⟨ordered, horder, ?_⟩, hgivens, hrecords⟩
  unfold LoopEnds at hends
  rcases Dataflow.run_spec hschedule rfl hsettled with
    ⟨hnone, hall⟩ | ⟨first, node, rest, e, hfailed, hsplit, hfirst, hthrows⟩
  · rw [hnone] at hends
    obtain ⟨rfl, hcalled⟩ := hends
    refine Or.inl ⟨hcalled, fun p hp => ⟨_, hall p hp⟩, ?_⟩
    obtain ⟨last, hlast⟩ : ∃ last, ordered.getLast? = some last := by
      cases hlast : ordered.getLast? with
      | none =>
          obtain ⟨id, trigger, htrigger, -⟩ := hg.has_trigger
          rw [List.getLast?_eq_none_iff.mp hlast] at horder
          cases horder.perm.symm.subset htrigger
      | some last => exact ⟨last, rfl⟩
    refine ⟨last, _, hlast, hall last (List.mem_of_getLast? hlast), ?_⟩
    rw [hlast, horder.perm.length_eq]
    rfl
  · rw [hfailed] at hends
    obtain ⟨rfl, first', rest', hsplit', hcalled⟩ := hends
    obtain rfl := hschedule.split_unique hsplit hsplit'
    exact Or.inr ⟨first, node, rest, e, hsplit, hcalled, fun p hp => ⟨_, hfirst p hp⟩, hthrows, rfl⟩

/-- The run completes if and only if the nodes yield. -/
theorem ExecutorRun.completes_iff
    (haccept : workflowDefinitionSchema (some execution.workflowVersion.definition) = .ok d)
    (hsim : simulatedWorkflowFailure m.input = none)
    (hrun : ExecutorRun exec m execution events out) :
    (∃ result, out = .ok result)
      ↔ ∀ node ∈ d.nodes, ∃ output, (meaning d m.input exec).Yields node output := by
  obtain ⟨⟨ordered, horder, hends⟩, -, -⟩ := hrun.endsAlong haccept hsim
  rcases hends with ⟨-, hall, last, output, -, -, rfl⟩
    | ⟨before, node, after, e, hsplit, -, -, hthrows, rfl⟩
  · exact iff_of_true ⟨_, rfl⟩ fun p hp => hall p (horder.perm.symm.subset hp)
  · refine iff_of_false (by simp) fun hall => ?_
    obtain ⟨output, houtput⟩ := hall node (horder.perm.subset (by simp [hsplit]))
    exact hthrows.not_yields houtput

/-! ### A failing condition -/

/-- Answers in which only executors fail. -/
def executorReply (exec : WorkflowNode → Record → Except JsError Record) :
    (op : WorkerOp) → Reply JsError op.Result
  | .executeWorkflowNode node context =>
      match executorOf exec node context.input with
      | .ok output => .ok output
      | .error e => .failed e
  | op => .ok (op.sampleResult fun _ input => input)

/-- There is such a run. -/
theorem exists_executorRun (exec : WorkflowNode → Record → Except JsError Record)
    (m : WorkflowExecutionRequestedMessage) (execution : WorkflowExecution) :
    ∃ events out, ExecutorRun exec m execution events out := by
  obtain ⟨events, out, htrace, hall⟩ :=
    exists_trace (executorReply exec) (executeWorkflowNodes m execution)
  refine ⟨events, out, htrace, fun ev hev => ?_⟩
  obtain ⟨op, reply⟩ := ev
  obtain rfl : reply = executorReply exec op := hall _ hev
  cases op with
  | executeWorkflowNode node context =>
      show (executorReply exec (.executeWorkflowNode node context)).result = _
      simp only [executorReply]
      cases executorOf exec node context.input with
      | ok output => rfl
      | error e => rfl
  | publish p => exact fun _ => rfl
  | _ => trivial

def triggerNode : WorkflowNode where
  nodeId := ⟨"trigger", by decide, by decide⟩
  name := ⟨"Trigger", by decide⟩
  position := none
  config := .manualTrigger

def checkNode : WorkflowNode where
  nodeId := ⟨"check", by decide, by decide⟩
  name := ⟨"Check", by decide⟩
  position := none
  config := .conditionAction ⟨⟨"x", by decide⟩, .exists, none, ⟨"present", by decide⟩,
    ⟨"absent", by decide⟩, by simp⟩

/-- A trigger and a condition behind it. -/
def checkDefinition : WorkflowDefinition where
  nodes := [triggerNode, checkNode]
  edges := [⟨⟨"edge", by decide, by decide⟩, triggerNode.nodeId, checkNode.nodeId⟩]
  nodes_length := by decide
  edges_length := by decide

/-- The same, written the other way round. -/
def reversedCheckDefinition : WorkflowDefinition where
  nodes := [checkNode, triggerNode]
  edges := checkDefinition.edges
  nodes_length := by decide
  edges_length := by decide

theorem checkDefinition_accepted :
    workflowDefinitionSchema (some checkDefinition.toJson) = .ok checkDefinition := by
  rfl

theorem reversedCheckDefinition_accepted :
    workflowDefinitionSchema (some reversedCheckDefinition.toJson)
      = .ok reversedCheckDefinition := by
  rfl

/-! ### The results -/

/-- **The interpreter is adequate.** On an accepted definition, when only
executors fail, an execution completes exactly if every node yields an output,
and then with that of a node without outgoing edges; otherwise it ends with the
error of a node that throws, after the nodes in front of it have yielded theirs.
Every executor call gets the input of the network, and what is recorded of a
node is what it comes to. -/
theorem executeWorkflowNodes_adequate
    (haccept : workflowDefinitionSchema (some execution.workflowVersion.definition) = .ok d)
    (hsim : simulatedWorkflowFailure m.input = none)
    (hrun : ExecutorRun exec m execution events out) :
    ((∃ result, out = .ok result)
        ↔ ∀ node ∈ d.nodes, ∃ output, (meaning d m.input exec).Yields node output)
    ∧ (∀ result, out = .ok result → ((executorCalls events).map (·.1)).Perm d.nodes
        ∧ ∃ sink ∈ d.nodes, d.IsSink sink.id ∧ ∃ output,
          (meaning d m.input exec).Yields sink output
          ∧ result = executionOutput d.nodes.length output)
    ∧ (∀ e, out = .error e → ∃ before node, (executorCalls events).map (·.1) = before ++ [node]
        ∧ (before ++ [node]).Subperm d.nodes
        ∧ (∀ p ∈ before, ∃ output, (meaning d m.input exec).Yields p output)
        ∧ (meaning d m.input exec).Throws node e)
    ∧ (∀ call ∈ executorCalls events, Given d m.input exec call.1 call.2)
    ∧ List.Forall₂ (Records (meaning d m.input exec)) ((executorCalls events).map (·.1))
        (nodeResults events) := by
  have hg := wellFormedGraph_of_accepted haccept
  obtain ⟨⟨ordered, horder, hends⟩, hgivens, hrecords⟩ := hrun.endsAlong haccept hsim
  refine ⟨hrun.completes_iff haccept hsim, ?_, ?_, hgivens, hrecords⟩
  all_goals
    rcases hends with ⟨hcalled, hall, last, output, hlast, hyields, rfl⟩
      | ⟨before, node, after, e, hsplit, hcalled, hbefore, hthrows, rfl⟩
  · rintro result ⟨⟩
    obtain ⟨before, rfl⟩ := List.getLast?_eq_some_iff.mp hlast
    rw [hcalled, ← horder.perm.length_eq]
    exact ⟨horder.perm, last, horder.perm.subset (by simp), horder.isSink_last hg, output,
      hyields, rfl⟩
  · rintro result ⟨⟩
  · rintro e ⟨⟩
  · rintro e' ⟨⟩
    refine ⟨before, node, hcalled, ?_, hbefore, hthrows⟩
    refine List.Sublist.subperm ?_ |>.trans horder.perm.subperm
    rw [hsplit]
    simp

omit [Runtime] in
/-- The theorem at a run whose condition fails. -/
theorem executeWorkflowNodes_adequate_check :
    ∃ (_ : Runtime) (events : List WorkerEvent) (out : Except JsError Record),
      ExecutorRun (fun _ _ => .error cannotConvert) (newCommand checkDefinition.toJson)
        (newExecution checkDefinition.toJson) events out
      ∧ ((∃ result, out = .ok result) ↔ ∀ node ∈ checkDefinition.nodes, ∃ output,
        (meaning checkDefinition [] fun _ _ => .error cannotConvert).Yields node output) := by
  let _ : Runtime := .sample false
  obtain ⟨events, out, hrun⟩ := exists_executorRun (fun _ _ => .error cannotConvert)
    (newCommand checkDefinition.toJson) (newExecution checkDefinition.toJson)
  exact ⟨_, events, out, hrun,
    (executeWorkflowNodes_adequate checkDefinition_accepted rfl hrun).1⟩

/-- The nodes that were executed, with what was recorded of each. -/
def recorded (events : List WorkerEvent) : List (WorkflowNode × Except WorkerFailure Record) :=
  ((executorCalls events).map (·.1)).zip (nodeResults events)

/-- **Permuted definitions.** When the nodes and edges of a definition are
written down in another order, executions with the same executors and input
still complete or fail together, also when executors throw; a node that is
executed in both is given the same input, and the same is recorded of it. -/
theorem executeWorkflowNodes_permuted {m' : WorkflowExecutionRequestedMessage}
    {execution' : WorkflowExecution} {d' : WorkflowDefinition} {events' : List WorkerEvent}
    {out' : Except JsError Record}
    (haccept : workflowDefinitionSchema (some execution.workflowVersion.definition) = .ok d)
    (haccept' : workflowDefinitionSchema (some execution'.workflowVersion.definition) = .ok d')
    (hnodes : d'.nodes.Perm d.nodes) (hedges : d'.edges.Perm d.edges) (hinput : m'.input = m.input)
    (hsim : simulatedWorkflowFailure m.input = none)
    (hrun : ExecutorRun exec m execution events out)
    (hrun' : ExecutorRun exec m' execution' events' out') :
    ((∃ result, out = .ok result) ↔ ∃ result, out' = .ok result)
    ∧ (∀ node given given', (node, given) ∈ executorCalls events →
        (node, given') ∈ executorCalls events' → given = given')
    ∧ ∀ node r r', (node, r) ∈ recorded events → (node, r') ∈ recorded events' → r = r' := by
  have hg := wellFormedGraph_of_accepted haccept
  have hg' := wellFormedGraph_of_accepted haccept'
  obtain ⟨-, hgivens, hrecords⟩ := hrun.endsAlong haccept hsim
  obtain ⟨-, hgivens', hrecords'⟩ := hrun'.endsAlong haccept' (hinput ▸ hsim)
  have hcompletes' := hrun'.completes_iff haccept' (hinput ▸ hsim)
  rw [hinput] at hgivens' hrecords' hcompletes'
  refine ⟨?_, fun node given given' hcall hcall' => ?_, fun node r r' hr hr' => ?_⟩
  · rw [hrun.completes_iff haccept hsim, hcompletes']
    constructor
    · intro hall node hnode
      obtain ⟨output, houtput⟩ := hall node (hnodes.subset hnode)
      exact ⟨output, meaning_perm hg hg' hnodes hedges houtput⟩
    · intro hall node hnode
      obtain ⟨output, houtput⟩ := hall node (hnodes.symm.subset hnode)
      exact ⟨output, meaning_perm hg' hg hnodes.symm hedges.symm houtput⟩
  · exact (given_perm hg hg' hnodes hedges (hgivens _ hcall)).unique (hgivens' _ hcall')
  · exact (records_perm hg hg' hnodes hedges (List.forall₂_iff_zip.mp hrecords |>.2 hr)).unique
      (List.forall₂_iff_zip.mp hrecords' |>.2 hr')

omit [Runtime] in
/-- The theorem at two nodes in both orders. -/
theorem executeWorkflowNodes_permuted_check :
    ∃ (_ : Runtime) (events events' : List WorkerEvent) (out out' : Except JsError Record),
      ExecutorRun (fun _ _ => .error cannotConvert) (newCommand checkDefinition.toJson)
        (newExecution checkDefinition.toJson) events out
      ∧ ExecutorRun (fun _ _ => .error cannotConvert) (newCommand reversedCheckDefinition.toJson)
        (newExecution reversedCheckDefinition.toJson) events' out'
      ∧ ((∃ result, out = .ok result) ↔ ∃ result, out' = .ok result) := by
  let _ : Runtime := .sample false
  obtain ⟨events, out, hrun⟩ := exists_executorRun (fun _ _ => .error cannotConvert)
    (newCommand checkDefinition.toJson) (newExecution checkDefinition.toJson)
  obtain ⟨events', out', hrun'⟩ := exists_executorRun (fun _ _ => .error cannotConvert)
    (newCommand reversedCheckDefinition.toJson) (newExecution reversedCheckDefinition.toJson)
  have hnodes : reversedCheckDefinition.nodes.Perm checkDefinition.nodes := .swap _ _ _
  exact ⟨_, events, events', out, out', hrun, hrun',
    (executeWorkflowNodes_permuted checkDefinition_accepted reversedCheckDefinition_accepted
      hnodes (.refl _) rfl rfl hrun hrun').1⟩

end

end FlowPilot
