import FlowPilot.Lib.Amqp
import FlowPilot.WorkflowService.Routing

/-!
# The topology

Three services declare exchanges, queues and bindings when they start: the
API, the workflow service and the execution worker. Their declarations
overlap; they agree on every queue, and each service declares what it binds
before it binds it. So what is routed where can be read off one topology
(`topology`), for every exchange once its bindings are declared.
-/

namespace FlowPilot

open Amqp (Declaration Binding QueueArguments)

/-! ## Queues -/

def FlowPilotQueue.literal : FlowPilotQueue → String
  | .executionWorkerWorkflowExecutions => "flowpilot.execution-worker.workflow-executions"
  | .workflowServiceExecutionEvents => "flowpilot.workflow-service.execution-events"
  | .observabilityServiceAiTraces => "flowpilot.observability-service.ai-traces"
  | .observabilityServiceExecutionEvents => "flowpilot.observability-service.execution-events"

/-- `Object.values(FLOWPILOT_QUEUES)`. -/
def FlowPilotQueue.all : List FlowPilotQueue :=
  [.executionWorkerWorkflowExecutions, .workflowServiceExecutionEvents,
    .observabilityServiceAiTraces, .observabilityServiceExecutionEvents]

/-- The queues that are bound to the events exchange. -/
def FlowPilotQueue.forEvents : List FlowPilotQueue :=
  [.workflowServiceExecutionEvents, .observabilityServiceAiTraces,
    .observabilityServiceExecutionEvents]

/-- `FLOWPILOT_QUEUES.executionWorkerWorkflowExecutions`. -/
abbrev commandQueue : String := FlowPilotQueue.executionWorkerWorkflowExecutions.literal

/-- `FLOWPILOT_DEAD_LETTER_QUEUES.executionWorkerWorkflowExecutions`, the only
dead-letter queue that is declared. -/
def deadLetterQueue : String := "flowpilot.dlq.execution-worker.workflow-executions"

def retryQueues : List String := retryQueueConfig.map (·.queue)

/-- The key of commands, and of what the retry queues return. -/
abbrev requestedKey : String := FlowPilotRoutingKey.workflowExecutionRequested.literal

/-! ## Declarations -/

abbrev TopologyDeclaration := Declaration FlowPilotExchange String

abbrev TopologyBinding := Binding FlowPilotExchange String

def QueueBinding.toBinding (binding : QueueBinding) : TopologyBinding :=
  ⟨binding.queue.literal, binding.exchange, binding.routingKey⟩

/-- The exchanges the API and the worker assert. -/
def assertExchanges : List TopologyDeclaration :=
  [.assertExchange .commands, .assertExchange .events, .assertExchange .retry,
    .assertExchange .dlx]

/-- `declareTopology` of the API. -/
def Api.topologyDeclarations : List TopologyDeclaration :=
  assertExchanges ++ FlowPilotQueue.all.map (fun queue => .assertQueue queue.literal {})
    ++ flowPilotQueueBindings.map fun binding => .bindQueue binding.toBinding

/-- `declareTopology` of the workflow service. -/
def WorkflowService.topologyDeclarations : List TopologyDeclaration :=
  [.assertExchange .events,
      .assertQueue FlowPilotQueue.workflowServiceExecutionEvents.literal {}]
    ++ declaredBindings.map fun binding => .bindQueue binding.toBinding

def RetryQueue.arguments (retryConfig : RetryQueue) : QueueArguments FlowPilotExchange where
  messageTtl := some retryConfig.ttlMs
  deadLetter := some (.commands, requestedKey)

def RetryQueue.binding (retryConfig : RetryQueue) : TopologyBinding :=
  ⟨retryConfig.queue, .retry, retryConfig.routingKey⟩

/-- The bindings of the worker's own queue and of its dead-letter queue. -/
def commandBinding : TopologyBinding := ⟨commandQueue, .commands, requestedKey⟩

def deadLetterBinding : TopologyBinding := ⟨deadLetterQueue, .dlx, requestedKey⟩

/-- `declareTopology` of the execution worker. -/
def ExecutionWorker.topologyDeclarations : List TopologyDeclaration :=
  assertExchanges
    ++ [.assertQueue commandQueue {}, .assertQueue deadLetterQueue {}, .bindQueue commandBinding,
      .bindQueue deadLetterBinding]
    ++ retryQueueConfig.flatMap fun retryConfig =>
      [.assertQueue retryConfig.queue retryConfig.arguments, .bindQueue retryConfig.binding]

inductive Service where
  | api
  | workflowService
  | executionWorker
deriving DecidableEq

def Service.declarations : Service → List TopologyDeclaration
  | .api => Api.topologyDeclarations
  | .workflowService => WorkflowService.topologyDeclarations
  | .executionWorker => ExecutionWorker.topologyDeclarations

/-- What the services declare, together. -/
def topology : Amqp.Topology FlowPilotExchange String where
  arguments queue :=
    match retryQueueConfig.find? (·.queue = queue) with
    | some retryConfig => retryConfig.arguments
    | none => {}
  bindings := (Api.flowPilotQueueBindings ++ WorkflowService.declaredBindings).map (·.toBinding)
    ++ [commandBinding, deadLetterBinding] ++ retryQueueConfig.map (·.binding)

theorem Service.admitted (service : Service) : ∀ d ∈ service.declarations, topology.Admits d := by
  cases service <;> decide

theorem Service.ordered (service : Service) : Amqp.ordered [] service.declarations = true := by
  cases service <;> decide

/-- The service declares the exchange and all that is bound to it. -/
def Service.Covers (service : Service) (exchange : FlowPilotExchange) : Prop :=
  .assertExchange exchange ∈ service.declarations
  ∧ ∀ binding ∈ topology.bindings, binding.exchange = exchange →
    .bindQueue binding ∈ service.declarations

instance (service : Service) (exchange : FlowPilotExchange) :
    Decidable (service.Covers exchange) := inferInstanceAs (Decidable (_ ∧ _))

theorem api_covers : Service.api.Covers .commands ∧ Service.api.Covers .events := by
  decide

theorem executionWorker_covers {exchange : FlowPilotExchange} (h : exchange ≠ .events) :
    Service.executionWorker.Covers exchange := by
  cases exchange with
  | events => exact absurd rfl h
  | _ => decide

/-! ## Routing -/

/-- Where the topology sends a publication. -/
def Publication.destinedTo (p : Publication) (queue : String) : Bool :=
  match p.exchange with
  | .commands => queue = commandQueue && p.routingKey = requestedKey
  | .retry => retryQueueConfig.any fun retryConfig =>
      queue = retryConfig.queue && p.routingKey = retryConfig.routingKey
  | .dlx => queue = deadLetterQueue && p.routingKey = requestedKey
  | .events => FlowPilotQueue.forEvents.any fun eventQueue =>
      queue = eventQueue.literal && p.routedTo eventQueue

theorem routesBy_eq_true {bindings : List TopologyBinding} {exchange : FlowPilotExchange}
    {key queue : String} : Amqp.routesBy bindings exchange key queue = true
      ↔ ∃ binding ∈ bindings, binding.exchange = exchange ∧ queue = binding.queue
        ∧ Amqp.topicMatches binding.pattern key = true := by
  simp only [Amqp.routesBy, List.any_eq_true, Bool.and_eq_true, decide_eq_true_eq]
  grind

/-- The patterns of commands, retry copies and dead letters have no
wildcards. -/
theorem binding_literal : ∀ binding ∈ topology.bindings, binding.exchange ≠ .events →
    ['#'] ∉ Amqp.words binding.pattern ∧ ['*'] ∉ Amqp.words binding.pattern := by
  decide

theorem commandBinding_only : ∀ binding ∈ topology.bindings,
    binding.exchange = .commands ↔ binding = commandBinding := by
  decide

theorem deadLetterBinding_only : ∀ binding ∈ topology.bindings,
    binding.exchange = .dlx ↔ binding = deadLetterBinding := by
  decide

theorem retryBinding_only : ∀ binding ∈ topology.bindings,
    binding.exchange = .retry
      ↔ ∃ retryConfig ∈ retryQueueConfig, binding = retryConfig.binding := by
  decide

theorem eventBinding_only : ∀ binding ∈ topology.bindings, binding.exchange = .events →
    ∃ declared ∈ Api.flowPilotQueueBindings ++ WorkflowService.declaredBindings,
      declared.exchange = .events ∧ binding = declared.toBinding := by
  decide

theorem queueBinding_events : ∀ declared ∈ Api.flowPilotQueueBindings
    ++ WorkflowService.declaredBindings, declared.exchange = .events →
      declared.toBinding ∈ topology.bindings ∧ declared.queue ∈ FlowPilotQueue.forEvents
        ∧ ['#'] ∉ Amqp.words declared.routingKey := by
  decide

/-- The two notions of a match agree on the patterns in use. -/
theorem topicMatches_eq {pattern key : String} (h : ['#'] ∉ Amqp.words pattern) :
    Amqp.topicMatches pattern key = WorkflowService.topicMatches pattern key :=
  Amqp.matchesWords_of_fixed h _

/-- Without wildcards, messages go where their key is the pattern. -/
theorem routesBy_literal {exchange : FlowPilotExchange} (h : exchange ≠ .events)
    {key queue : String} : Amqp.routesBy topology.bindings exchange key queue = true
      ↔ ∃ binding ∈ topology.bindings, binding.exchange = exchange ∧ queue = binding.queue
        ∧ key = binding.pattern := by
  rw [routesBy_eq_true]
  refine exists_congr fun binding => and_congr_right fun hmem => and_congr_right fun hbinding =>
    and_congr_right fun _ => ?_
  obtain ⟨hhash, hstar⟩ := binding_literal binding hmem (hbinding ▸ h)
  exact Amqp.topicMatches_literal hhash hstar

/-- Into the queue of the worker nothing is routed but commands. -/
theorem routesBy_commandQueue {exchange : FlowPilotExchange} {key : String}
    (h : Amqp.routesBy topology.bindings exchange key commandQueue = true) :
    exchange = .commands ∧ key = requestedKey := by
  have honly : ∀ binding ∈ topology.bindings, commandQueue = binding.queue →
      binding.exchange = .commands := by decide
  obtain ⟨binding, hmem, rfl, hqueue, hmatch⟩ := routesBy_eq_true.mp h
  have hcommands := honly binding hmem hqueue
  have hkey := (Amqp.topicMatches_literal (binding_literal binding hmem (by simp [hcommands])).1
    (binding_literal binding hmem (by simp [hcommands])).2).mp hmatch
  obtain rfl := (commandBinding_only binding hmem).mp hcommands
  exact ⟨rfl, hkey⟩

/-- Commands are routed to nobody else. -/
theorem routesBy_commands {key queue : String}
    (h : Amqp.routesBy topology.bindings .commands key queue = true) : queue = commandQueue := by
  obtain ⟨binding, hmem, hbinding, rfl, -⟩ := routesBy_eq_true.mp h
  exact congrArg Binding.queue ((commandBinding_only binding hmem).mp hbinding)

theorem routesBy_requested (queue : String) :
    Amqp.routesBy topology.bindings .commands requestedKey queue
      = decide (queue = commandQueue) := by
  rw [Bool.eq_iff_iff, decide_eq_true_eq]
  refine ⟨routesBy_commands, ?_⟩
  rintro rfl
  decide

/-- Into the retry queues nothing is routed but retry copies. -/
theorem routesBy_retryQueues {exchange : FlowPilotExchange} {key queue : String}
    (hqueue : queue ∈ retryQueues)
    (h : Amqp.routesBy topology.bindings exchange key queue = true) : exchange = .retry := by
  have honly : ∀ binding ∈ topology.bindings, binding.queue ∈ retryQueues →
      binding.exchange = .retry := by decide
  obtain ⟨binding, hmem, rfl, rfl, -⟩ := routesBy_eq_true.mp h
  exact honly binding hmem hqueue

/-- What waits in a queue with a time to live is a retry copy, and becomes a
command. -/
theorem retryQueue_of_arguments {queue : String} {ttl : Nat} {exchange : FlowPilotExchange}
    {key : String} (h : topology.arguments queue = ⟨some ttl, some (exchange, key)⟩) :
    queue ∈ retryQueues ∧ exchange = .commands ∧ key = requestedKey := by
  simp only [topology] at h
  split at h
  · rename_i retryConfig hfind
    cases h
    obtain rfl : retryConfig.queue = queue := by simpa using List.find?_some hfind
    exact ⟨List.mem_map_of_mem (List.mem_of_find?_eq_some hfind), rfl, rfl⟩
  · cases h

theorem arguments_retryQueue : ∀ queue ∈ retryQueues, ∃ ttl,
    topology.arguments queue = ⟨some ttl, some (.commands, requestedKey)⟩ := by
  simp only [retryQueues, List.forall_mem_map]
  intro retryConfig hmem
  have hfind : (retryQueueConfig.find? (·.queue = retryConfig.queue)).isSome = true :=
    List.find?_isSome.mpr ⟨retryConfig, hmem, by simp⟩
  obtain ⟨found, hfound⟩ := Option.isSome_iff_exists.mp hfind
  exact ⟨found.ttlMs, by simp only [topology, hfound]; rfl⟩

theorem retryQueues_nodup : retryQueues.Nodup := by decide

theorem commandQueue_not_mem : commandQueue ∉ retryQueues := by decide

theorem deadLetterQueue_not_mem : deadLetterQueue ∉ retryQueues := by decide

/-- **Routing.** What the topology routes where. -/
theorem routesBy_topology (p : Publication) (queue : String) :
    Amqp.routesBy topology.bindings p.exchange p.routingKey queue = p.destinedTo queue := by
  rw [Bool.eq_iff_iff]
  unfold Publication.destinedTo
  cases hexchange : p.exchange with
  | commands =>
      simp only [routesBy_literal, ne_eq, reduceCtorEq, not_false_eq_true, Bool.and_eq_true,
        decide_eq_true_eq]
      constructor
      · rintro ⟨binding, hmem, hbinding, hrouted⟩
        obtain rfl := (commandBinding_only binding hmem).mp hbinding
        exact hrouted
      · exact fun hrouted => ⟨commandBinding, by decide, rfl, hrouted⟩
  | retry =>
      simp only [routesBy_literal, ne_eq, reduceCtorEq, not_false_eq_true, List.any_eq_true,
        Bool.and_eq_true, decide_eq_true_eq]
      constructor
      · rintro ⟨binding, hmem, hbinding, hrouted⟩
        obtain ⟨retryConfig, hconfig, rfl⟩ := (retryBinding_only binding hmem).mp hbinding
        exact ⟨retryConfig, hconfig, hrouted⟩
      · rintro ⟨retryConfig, hconfig, hrouted⟩
        exact ⟨retryConfig.binding, List.mem_append_right _ (List.mem_map_of_mem hconfig), rfl,
          hrouted⟩
  | dlx =>
      simp only [routesBy_literal, ne_eq, reduceCtorEq, not_false_eq_true, Bool.and_eq_true,
        decide_eq_true_eq]
      constructor
      · rintro ⟨binding, hmem, hbinding, hrouted⟩
        obtain rfl := (deadLetterBinding_only binding hmem).mp hbinding
        exact hrouted
      · exact fun hrouted => ⟨deadLetterBinding, by decide, rfl, hrouted⟩
  | events =>
      simp only [routesBy_eq_true, List.any_eq_true, Bool.and_eq_true, decide_eq_true_eq,
        Publication.routedTo, hexchange]
      constructor
      · rintro ⟨binding, hmem, hbinding, rfl, hmatch⟩
        obtain ⟨declared, hdeclared, hevents, rfl⟩ := eventBinding_only binding hmem hbinding
        obtain ⟨-, hqueue, hfixed⟩ := queueBinding_events declared hdeclared hevents
        have hmatch' := (topicMatches_eq hfixed).symm.trans hmatch
        exact ⟨declared.queue, hqueue, rfl, declared, hdeclared, ⟨rfl, hevents⟩, hmatch'⟩
      · rintro ⟨eventQueue, -, rfl, declared, hdeclared, ⟨rfl, hevents⟩, hmatch⟩
        obtain ⟨hmem, -, hfixed⟩ := queueBinding_events declared hdeclared hevents
        rw [← topicMatches_eq hfixed] at hmatch
        exact ⟨_, hmem, hevents, rfl, hmatch⟩

end FlowPilot
