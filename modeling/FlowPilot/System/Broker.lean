import FlowPilot.Lib.Simulation
import FlowPilot.System.FailureHandling
import FlowPilot.System.OutboxRows
import FlowPilot.System.Topology
import FlowPilot.Worker.FoundFirst

/-!
# The system over its broker

`workerSystem` keeps one list for each exchange. Here the broker is what it
is: the services start and stop as they like, each declares its part of the
topology before it serves, and what is published goes where the broker's
bindings of the moment send it, or nowhere. A retry copy waits in the queue
of its delay, and the broker dead-letters it from there.

Every reachable state is sound (`ReachableBroker.sound`): the broker has only
what the services declare, and whatever relies on a declaration (a thread of
a worker, a retry copy, an execution) comes after it.
-/

namespace FlowPilot

open Prog hiding pure throw bind tryCatch

/-! ## The world -/

abbrev FlowPilotBroker := Amqp.Broker FlowPilotExchange String ConsumeMessage

/-- A running instance of a service, and the declarations it has yet to
make. -/
abbrev ServiceInstance := Service × List TopologyDeclaration

structure BrokerWorld where
  store : Store
  broker : FlowPilotBroker
  instances : List ServiceInstance
  /-- The executions whose request the API has answered. -/
  requested : List String
  /-- What was published to the events exchange beside the workers' events. -/
  announced : List Publication
  /-- What was taken from each queue for good. -/
  consumed : String → List ConsumeMessage

def BrokerWorld.empty : BrokerWorld := ⟨.empty, .empty, [], [], [], fun _ => []⟩

/-- One more instance has made its declarations. -/
def BrokerWorld.serving (w : BrokerWorld) (broker : FlowPilotBroker) (service : Service) :
    BrokerWorld :=
  { w with broker, instances := (service, []) :: w.instances }

/-- Dead-lettering replaces the routing key. -/
def ConsumeMessage.rekey (key : String) (message : ConsumeMessage) : ConsumeMessage :=
  { message with routingKey := key }

/-- The effect of a call that is not refused, as `WorkerOp.run`; `place` is
where a message that is given back lands in its queue. -/
def WorkerOp.runBroker : (op : WorkerOp) → CallContext → (place : Nat) → BrokerWorld →
    Option (op.Result × BrokerWorld)
  | .newDate, ctx, _, w => some (ctx.now, w)
  | .randomUUID, ctx, _, w => some (ctx.uuid, w)
  | .db c, ctx, _, w =>
      (c.run ctx.toDbContext w.store).map fun (r, s) => (r, { w with store := s })
  | .publish p, ctx, _, w =>
      (w.broker.publish p.exchange p.routingKey p.toMessage).map fun b =>
        (ctx.accepted, { w with broker := b })
  | .executeWorkflowNode node context, ctx, _, w =>
      some (if node.type = .manualTrigger then executeManualTriggerNode context else ctx.output, w)
  | .ack _, _, _, w => some ((), w)
  | .nack message _ requeue, _, place, w =>
      some ((), if requeue then { w with broker := w.broker.requeue commandQueue place message }
        else w)

/-- One call against the world, as `Environment.exec`. -/
def Environment.execBroker (env : Environment) (op : WorkerOp) (w : BrokerWorld)
    (reply : Reply JsError op.Result) (w' : BrokerWorld) : Prop :=
  match reply with
  | .ok r => env.Answers op r ∧ ∃ ctx place, op.runBroker ctx place w = some (r, w')
  | .lost e => op.Throws e ∧ ∃ ctx place r, op.runBroker ctx place w = some (r, w')
  | .failed e => op.Throws e ∧ w' = w

/-- The steps of the world itself. The API creates and publishes only when it
has declared its topology. -/
inductive BrokerStep [Runtime] (env : Environment) : BrokerWorld → BrokerWorld → Prop
  | start {w : BrokerWorld} (service : Service) :
      BrokerStep env w { w with instances := (service, service.declarations) :: w.instances }
  | declare {w : BrokerWorld} {before after : List ServiceInstance}
      {service : Service} {d : TopologyDeclaration} {rest : List TopologyDeclaration}
      {b : FlowPilotBroker} :
      w.instances = before ++ (service, d :: rest) :: after → w.broker.declare d = some b →
      BrokerStep env w { w with broker := b, instances := before ++ (service, rest) :: after }
  | exit {w : BrokerWorld} {before after : List ServiceInstance}
      {stopped : ServiceInstance} :
      w.instances = before ++ stopped :: after →
      BrokerStep env w { w with instances := before ++ after }
  | createExecution {w : BrokerWorld} {id : String} {row : WorkflowExecutionRow} :
      (.api, []) ∈ w.instances → w.store.executions id = none → row.IsNew → env.creates id row →
      BrokerStep env w
        { w with store := { w.store with
            executions := Function.update w.store.executions id (some row) } }
  | requestExecution {w : BrokerWorld} {execution : WorkflowExecution} {b : FlowPilotBroker}
      {p : Publication} (eventId occurredAt actorUserId : String) :
      (.api, []) ∈ w.instances → w.store.findExecution execution.id = some execution →
      execution.id ∉ w.requested →
      p = requestPublication (requestCommand execution eventId occurredAt actorUserId) →
      w.broker.publish p.exchange p.routingKey p.toMessage = some b →
      BrokerStep env w { w with broker := b, requested := w.requested ++ [execution.id] }
  /-- An event that no worker publishes. -/
  | announce {w : BrokerWorld} {p : Publication} {b : FlowPilotBroker} :
      (.api, []) ∈ w.instances → p.exchange = .events →
      w.broker.publish p.exchange p.routingKey p.toMessage = some b →
      BrokerStep env w { w with broker := b, announced := w.announced ++ [p] }
  /-- A foreign message is published to the commands exchange. -/
  | arrive {w : BrokerWorld} {message : ConsumeMessage} {b : FlowPilotBroker} :
      env.arrives message →
      w.broker.publish .commands message.routingKey message = some b →
      BrokerStep env w { w with broker := b }
  | expire {w : BrokerWorld} {queue : String} {b : FlowPilotBroker} :
      w.broker.expire ConsumeMessage.rekey queue = some b →
      BrokerStep env w { w with broker := b }
  /-- A consumer of another queue settles a message. -/
  | consume {w : BrokerWorld} {queue : String} {before after : List ConsumeMessage}
      {message : ConsumeMessage} :
      queue ∈ deadLetterQueue :: FlowPilotQueue.forEvents.map (·.literal) →
      w.broker.messages queue = before ++ message :: after →
      BrokerStep env w
        { w with
          broker := w.broker.setQueue queue (before ++ after)
          consumed := Function.update w.consumed queue (message :: w.consumed queue) }

/-- A worker consumes and dispatches only when it has declared its
topology. -/
inductive StartBrokerJob : Job → BrokerWorld → BrokerWorld → Prop
  | delivery {w : BrokerWorld} {rest : List ConsumeMessage} {message : ConsumeMessage} :
      (.executionWorker, []) ∈ w.instances →
      w.broker.messages commandQueue = message :: rest →
      StartBrokerJob (.delivery message) w
        { w with broker := w.broker.setQueue commandQueue rest }
  | outboxDispatcher {w : BrokerWorld} :
      (.executionWorker, []) ∈ w.instances → StartBrokerJob .outboxDispatcher w w

theorem StartBrokerJob.serves {job : Job} {w w' : BrokerWorld} (h : StartBrokerJob job w w') :
    (.executionWorker, []) ∈ w.instances := by
  cases h <;> assumption

theorem StartBrokerJob.mem_commands {message : ConsumeMessage} {w w' : BrokerWorld}
    (h : StartBrokerJob (.delivery message) w w') : message ∈ w.broker.messages commandQueue := by
  cases h with
  | delivery _ hmessages => simp [hmessages]

inductive StopBrokerJob : Job → WorkerHistory → BrokerWorld → BrokerWorld → Prop
  | requeue {w : BrokerWorld} {message : ConsumeMessage} {h : WorkerHistory} (place : Nat) :
      ¬ Settled h →
      StopBrokerJob (.delivery message) h w
        { w with broker := w.broker.requeue commandQueue place message }
  | settled {w : BrokerWorld} {message : ConsumeMessage} {h : WorkerHistory} :
      Settled h → StopBrokerJob (.delivery message) h w w
  | outboxDispatcher {w : BrokerWorld} {h : WorkerHistory} :
      StopBrokerJob .outboxDispatcher h w w

/-- The workers, the API, the workflow service and the broker. -/
def brokerSystem [Runtime] (env : Environment) :
    PoolSystem BrokerWorld Job WorkerOp WorkerOp.Result JsError where
  exec := env.execBroker
  program := Job.program
  spawn := StartBrokerJob
  stop := StopBrokerJob
  env := BrokerStep env

abbrev BrokerPool := Pool Nat BrokerWorld Job WorkerOp WorkerOp.Result JsError

/-- The states of every run from an empty system. -/
def ReachableBroker [Runtime] (env : Environment) (s : BrokerPool) : Prop :=
  Pool.Reachable (brokerSystem env) (· = .empty) (fun _ _ => True) s

/-! ## What the programs publish -/

/-- What a thread may publish and give back. -/
def Job.Sends (job : Job) : WorkerOp → Prop
  | .publish p =>
      match p.exchange with
      | .commands => False
      | .retry => ∃ retryConfig ∈ retryQueueConfig, p.routingKey = retryConfig.routingKey
      | .dlx => p.routingKey = requestedKey
          ∨ ∃ message, job = .delivery message ∧ p.routingKey = message.routingKey
      | .events => True
  | .nack message _ _ => job = .delivery message
  | _ => True

theorem QuietOp.sends {op : WorkerOp} (h : QuietOp op) (job : Job) : job.Sends op := by
  cases op with
  | publish p =>
      have hevents := h.2 p rfl
      simp [Job.Sends, hevents]
  | nack message allUpTo requeue => exact absurd trivial h.1
  | _ => trivial

theorem handleDelivery_sends [Runtime] (message : ConsumeMessage) :
    Issues (Job.delivery message).Sends (handleDelivery message) := by
  have hquiet : ∀ {α : Type} {p : Worker α}, Issues QuietOp p →
      Issues (Job.delivery message).Sends p := fun hp => issues_mono (fun _ h => h.sends _) hp
  unfold handleDelivery
  split
  · refine issues_bind (issues_bind (issues_perform trivial) fun now =>
      issues_bind (issues_perform ?_) fun _ => issues_pure _) fun _ => issues_perform trivial
    exact Or.inr ⟨message, rfl, rfl⟩
  · rename_i m _
    refine issues_tryCatch (issues_bind (hquiet (processWorkflowExecution_quiet m)) fun _ =>
      issues_perform trivial) fun e => ?_
    unfold handleFailure
    dsimp only
    split
    · refine issues_bind ?_ fun _ => issues_perform trivial
      unfold publishRetryCommand
      split
      · exact issues_throw _
      · rename_i retryConfig hfor
        refine issues_bind (issues_perform ⟨retryConfig, ?_, rfl⟩) fun _ => issues_pure _
        unfold retryQueueFor at hfor
        split at hfor
        · cases hfor
        · exact List.mem_of_getElem? hfor
    · refine issues_tryCatch (issues_bind
        (hquiet (quiet_of_stores (failWorkflowExecution_stores m _))) fun _ =>
          issues_bind (issues_bind (issues_perform (Or.inl rfl)) fun _ => issues_pure _) fun _ =>
            issues_perform trivial) fun _ => ?_
      exact issues_perform rfl

theorem Job.program_sends [Runtime] : ∀ job : Job, Issues job.Sends job.program
  | .delivery message => handleDelivery_sends message
  | .outboxDispatcher =>
      spec_mono (fun _ h => (RecordingOp.quiet h).sends _) outboxDispatcherCycle_spec
        (fun _ _ _ => trivial) (fun _ _ _ => trivial)

/-! ## Events come from executions -/

theorem Job.program_foundFirst [Runtime] : ∀ job : Job, Safe FoundFirst job.program
  | .delivery message => handleDelivery_foundFirst message
  | .outboxDispatcher => outboxDispatcherCycle_foundFirst

/-- No call creates an execution. -/
theorem DbCall.execution_of_run {c : DbCall} {ctx : DbContext} {s s' : Store} {r : c.Result}
    (h : c.run ctx s = some (r, s')) {x : String} {row : WorkflowExecutionRow}
    (hrow : s'.executions x = some row) : ∃ row', s.executions x = some row' := by
  cases c with
  | transaction t =>
      rcases runTransaction_cases h with ⟨-, rfl, -⟩ | ⟨row', _, hrow', -, -, hupsert⟩
      · exact ⟨row, hrow⟩
      · rw [Store.upsertOutbox_executions hupsert] at hrow
        by_cases hx : x = t.id
        · exact ⟨row', hx ▸ hrow'⟩
        · exact ⟨row, by simpa [hx] using hrow⟩
  | upsertOutbox routingKey message => exact ⟨row, Store.upsertOutbox_executions h ▸ hrow⟩
  | updateOutbox id data =>
      rw [DbCall.run_updateOutbox h] at hrow
      exact ⟨row, hrow⟩
  | _ => exact ⟨row, (DbCall.run_frame h fun hwrites => hwrites).1 ▸ hrow⟩

section

variable [Runtime] {env : Environment} {C : WorkerPool → WorkerLabel → Prop} {s s' : WorkerPool}
  {l : WorkerLabel}

/-- Where an event is stored, there is an execution. -/
theorem ReachableUnder.execution_of_row (h : ReachableUnder env C s)
    (houtbox : s.world.store.outbox ≠ []) : ∃ x row, s.world.store.executions x = some row := by
  induction h with
  | start hw =>
      subst hw
      exact absurd rfl houtbox
  | @step s s' l hreach _ hs ih =>
      have hreached := ReachableUnder.reached hreach
      have hlater : (∃ x row, s.world.store.executions x = some row) →
          ∃ x row, s'.world.store.executions x = some row := by
        rintro ⟨x, row, hrow⟩
        have hle := (hreached.advances hs).rowLe x
        rw [hrow] at hle
        exact ⟨x, hle.exists_later⟩
      rcases outboxEffect_of_step hs with ⟨heq, -⟩ | ⟨t, op, reply, rfl, heffect⟩
      · exact hlater (ih (heq ▸ houtbox))
      · have hold : s.world.store.outbox ≠ [] → ∃ x row, s'.world.store.executions x = some row :=
          fun hold => hlater (ih hold)
        obtain ⟨info, history, k, hth, hexec, -⟩ := hs.act_cases
        obtain ⟨row', hrow'⟩ := List.exists_mem_of_ne_nil _ houtbox
        rcases heffect.origin hrow' with hrow | ⟨ctx, routingKey, message, hstores, -⟩ |
          ⟨row, hrow, -⟩
        · exact hold (List.ne_nil_of_mem hrow)
        · cases hstores with
          | upsert routingKey message =>
              obtain ⟨x, row, hsaw⟩ :=
                (Pool.Reachable.obeys (fun job => job.program_foundFirst []) hreach).next hth
              obtain ⟨later, hlater'⟩ :=
                ((hreached.histories t _ hth _ hsaw).found x row rfl).exists_later
              exact hlater ⟨x, later, hlater'⟩
          | transaction t' =>
              rcases Environment.exec_cases hexec with ⟨heq, -⟩ | ⟨ctx', r, hrun, -⟩
              · rw [heq] at houtbox
                exact hold houtbox
              · obtain ⟨store, hrun', hworld⟩ := WorkerOp.run_db hrun
                rcases runTransaction_cases hrun' with ⟨-, rfl, -⟩ | ⟨row, _, hrow, -⟩
                · rw [hworld] at houtbox
                  exact hold houtbox
                · exact hlater ⟨_, row, hrow⟩
        · exact hold (List.ne_nil_of_mem hrow)

/-- A worker publishes an event only when there is an execution. -/
theorem ReachableUnder.execution_of_publish (h : ReachableUnder env C s) {t : Nat} {info : Job}
    {history : WorkerHistory} {p : Publication} {k : Except JsError Bool → Worker Unit}
    (hth : s.threads t = some ⟨info, history, .call (.publish p) k⟩) (hp : p.exchange = .events) :
    ∃ x row, s.world.store.executions x = some row := by
  obtain ⟨snapshot, now, hseen, -⟩ := (ReachableUnder.outboxOp h).next hth hp
  obtain ⟨row, hrow, -⟩ := ReachableUnder.snapshots h t _ hth snapshot hseen
  exact ReachableUnder.execution_of_row h (List.ne_nil_of_mem hrow)

end

/-! ## Sound worlds -/

/-- The service's declarations are in force. -/
def BrokerWorld.Declared (w : BrokerWorld) (service : Service) : Prop :=
  ∀ d ∈ service.declarations, w.broker.Has d

/-- The broker has only what the services declare, and what depends on a
declaration finds it made. -/
structure TopologySound (w : BrokerWorld) : Prop where
  within : topology.Within w.broker
  underway : ∀ i ∈ w.instances, w.broker.Underway i.1.declarations i.2
  commands : ∀ message ∈ w.broker.messages commandQueue, message.routingKey = requestedKey
  retries : ∀ queue ∈ retryQueues, w.broker.messages queue ≠ [] → w.Declared .executionWorker
  executions : ∀ x row, w.store.executions x = some row → w.Declared .api

theorem topologySound_empty : TopologySound .empty where
  within := Amqp.Topology.within_empty
  underway := by simp [BrokerWorld.empty]
  commands := by simp [BrokerWorld.empty, Amqp.Broker.empty]
  retries := by simp [BrokerWorld.empty, Amqp.Broker.empty]
  executions := by simp [BrokerWorld.empty, Store.empty]

namespace TopologySound

variable {w w' : BrokerWorld}

theorem declared (h : TopologySound w) {service : Service} (hserves : (service, []) ∈ w.instances) :
    w.Declared service := fun _ hd => (h.underway _ hserves).has hd

end TopologySound

/-- A step to a sound world that revokes no declaration. -/
structure TopologyKept (w w' : BrokerWorld) : Prop where
  sound : TopologySound w'
  has : ∀ d, w.broker.Has d → w'.broker.Has d

namespace TopologyKept

variable {w w' : BrokerWorld}

/-- Only messages and rows are changed. -/
theorem of_messages (h : TopologySound w) {messages : String → List ConsumeMessage}
    (hbroker : w'.broker = { w.broker with messages }) (hinstances : w'.instances = w.instances)
    (hcommands : ∀ message ∈ messages commandQueue, message.routingKey = requestedKey)
    (hretries : ∀ queue ∈ retryQueues, messages queue ≠ [] → w.Declared .executionWorker)
    (hexecutions : ∀ x row, w'.store.executions x = some row → w.Declared .api) :
    TopologyKept w w' := by
  have hhas : ∀ d, w.broker.Has d → w'.broker.Has d := by
    rw [hbroker]
    exact fun _ hd => hd
  have hdeclared : ∀ {service}, w.Declared service → w'.Declared service :=
    fun h d hd => hhas d (h d hd)
  refine ⟨⟨?_, ?_, ?_, ?_, fun x row hrow => hdeclared (hexecutions x row hrow)⟩, hhas⟩
  · rw [hbroker]
    exact ⟨h.within.arguments, h.within.bindings⟩
  · rw [hbroker, hinstances]
    exact h.underway
  · rw [hbroker]
    exact hcommands
  · rw [hbroker]
    exact fun queue hqueue hmessages => hdeclared (hretries queue hqueue hmessages)

/-- Only rows are changed. -/
theorem of_store (h : TopologySound w) {store : Store}
    (hexecutions : ∀ x row, store.executions x = some row → w.Declared .api) :
    TopologyKept w { w with store } :=
  have hbroker : w.broker = { w.broker with messages := w.broker.messages } := rfl
  of_messages h hbroker rfl h.commands h.retries hexecutions

theorem publish (h : TopologySound w) {exchange : FlowPilotExchange} {key : String}
    {message : ConsumeMessage} {b : FlowPilotBroker}
    (hpublish : w.broker.publish exchange key message = some b)
    (hkey : message.routingKey = key) (hretry : exchange = .retry → w.Declared .executionWorker)
    (hbroker : w'.broker = b) (hinstances : w'.instances = w.instances)
    (hstore : w'.store = w.store) : TopologyKept w w' := by
  refine of_messages h (hbroker.trans (Amqp.Broker.publish_cases hpublish)) hinstances
    (fun added hadded => ?_) (fun queue hqueue hmessages => ?_) (hstore ▸ h.executions)
  · rcases List.mem_append.mp hadded with hold | hnew
    · exact h.commands added hold
    · split at hnew
      · rename_i hroutes
        obtain rfl := List.mem_singleton.mp hnew
        exact hkey.trans (routesBy_commandQueue (h.within.routes hroutes)).2
      · cases hnew
  · by_cases hroutes : w.broker.routes exchange key queue = true
    · exact hretry (routesBy_retryQueues hqueue (h.within.routes hroutes))
    · exact h.retries queue hqueue (by simpa [hroutes] using hmessages)

/-- The queue of the worker holds other commands. -/
theorem setCommands (h : TopologySound w) {messages : List ConsumeMessage}
    (hmessages : ∀ message ∈ messages, message.routingKey = requestedKey) :
    TopologyKept w { w with broker := w.broker.setQueue commandQueue messages } := by
  refine of_messages h rfl rfl ?_ (fun queue hqueue hne => ?_) h.executions
  · rw [Function.update_self]
    exact hmessages
  · have hother : queue ≠ commandQueue := fun heq => commandQueue_not_mem (heq ▸ hqueue)
    rw [Function.update_of_ne hother] at hne
    exact h.retries queue hqueue hne

/-- A command goes back. -/
theorem requeue (h : TopologySound w) {message : ConsumeMessage}
    (hmessage : message.routingKey = requestedKey) (place : Nat) :
    TopologyKept w { w with broker := w.broker.requeue commandQueue place message } := by
  refine setCommands h fun message' hmem => ?_
  rcases List.mem_append.mp hmem with hbefore | hafter
  · exact h.commands _ (List.mem_of_mem_take hbefore)
  · rcases List.mem_cons.mp hafter with rfl | hafter
    · exact hmessage
    · exact h.commands _ (List.mem_of_mem_drop hafter)

theorem run (h : TopologySound w) {op : WorkerOp} {ctx : CallContext} {place : Nat}
    {r : op.Result} (hrun : op.runBroker ctx place w = some (r, w'))
    (hworker : w.Declared .executionWorker)
    (hnack : ∀ message allUpTo requeue, op = .nack message allUpTo requeue →
      message.routingKey = requestedKey) : TopologyKept w w' := by
  have hsame : TopologyKept w w := of_store h h.executions
  cases op with
  | db c =>
      obtain ⟨⟨r', store⟩, hcall, heq⟩ := Option.map_eq_some_iff.mp hrun
      cases heq
      refine of_store h fun x row hrow => ?_
      obtain ⟨row', hrow'⟩ := DbCall.execution_of_run hcall hrow
      exact h.executions x row' hrow'
  | publish p =>
      obtain ⟨b, hpublish, heq⟩ := Option.map_eq_some_iff.mp hrun
      cases heq
      exact publish h hpublish rfl (fun _ => hworker) rfl rfl rfl
  | nack message allUpTo requeue =>
      cases hrun
      cases requeue with
      | true => exact TopologyKept.requeue h (hnack message allUpTo true rfl) place
      | false => exact hsame
  | _ =>
      cases hrun
      exact hsame

/-- A retry queue holds other copies. -/
theorem setRetries (h : TopologySound w) {queue : String} (hqueue : queue ∈ retryQueues)
    (hne : w.broker.messages queue ≠ []) (messages : List ConsumeMessage) :
    TopologyKept w { w with broker := w.broker.setQueue queue messages } := by
  refine of_messages h rfl rfl (fun message' hmem => ?_) (fun queue' hqueue' _ => ?_)
    h.executions
  · have hother : commandQueue ≠ queue := fun heq => commandQueue_not_mem (heq ▸ hqueue)
    rw [Function.update_of_ne hother] at hmem
    exact h.commands _ hmem
  · exact h.retries queue hqueue hne

/-- A retry copy comes back. -/
theorem expire (h : TopologySound w) {queue : String} {b : FlowPilotBroker}
    (hexpire : w.broker.expire ConsumeMessage.rekey queue = some b) :
    TopologyKept w { w with broker := b } := by
  obtain ⟨ttl, exchange, key, message, rest, hlookup, hmessages, hpublish⟩ :=
    Amqp.Broker.expire_cases hexpire
  obtain ⟨hqueue, rfl, rfl⟩ := retryQueue_of_arguments (h.within.arguments _ _ hlookup)
  have hleft := setRetries h hqueue (by simp [hmessages]) rest
  have hback : TopologyKept _ { w with broker := b } :=
    publish hleft.sound hpublish rfl (fun hretry => by cases hretry) rfl rfl rfl
  exact ⟨hback.sound, fun d hd => hback.has d (hleft.has d hd)⟩

theorem declare (h : TopologySound w) {before after : List ServiceInstance}
    {service : Service} {d : TopologyDeclaration} {rest : List TopologyDeclaration}
    (hinstances : w.instances = before ++ (service, d :: rest) :: after) :
    ∃ b, w.broker.declare d = some b ∧ b.messages = w.broker.messages
      ∧ TopologyKept w { w with broker := b, instances := before ++ (service, rest) :: after } := by
  have hunderway : ∀ i ∈ before ++ (service, d :: rest) :: after,
      w.broker.Underway i.1.declarations i.2 := hinstances ▸ h.underway
  obtain ⟨b, hdeclare, hwithin, hhas, hmessages, hrest⟩ :=
    Amqp.Topology.declare_underway h.within service.ordered service.admitted
      (hunderway (service, d :: rest) (by simp))
  refine ⟨b, hdeclare, hmessages, ⟨hwithin, ?_, ?_, ?_, ?_⟩, hhas⟩
  · intro i hi
    rcases List.mem_append.mp hi with hi | hi
    · exact (hunderway i (List.mem_append_left _ hi)).mono hhas
    · rcases List.mem_cons.mp hi with rfl | hi
      · exact hrest
      · exact (hunderway i (List.mem_append_right _ (List.mem_cons_of_mem _ hi))).mono hhas
  · rw [hmessages]
    exact h.commands
  · rw [hmessages]
    exact fun queue hqueue hne d hd => hhas d (h.retries queue hqueue hne d hd)
  · exact fun x row hrow d hd => hhas d (h.executions x row hrow d hd)

theorem step [Runtime] {env : Environment} (h : TopologySound w) (hs : BrokerStep env w w') :
    TopologyKept w w' := by
  cases hs with
  | start service =>
      refine ⟨⟨h.within, ?_, h.commands, h.retries, h.executions⟩, fun _ hd => hd⟩
      exact List.forall_mem_cons.mpr ⟨Amqp.Broker.underway_start _ _, h.underway⟩
  | declare hinstances hdeclare =>
      obtain ⟨b, hb, -, hkept⟩ := TopologyKept.declare h hinstances
      obtain rfl := Option.some.inj (hb.symm.trans hdeclare)
      exact hkept
  | @exit before after stopped hinstances =>
      refine ⟨⟨h.within, fun i hi => h.underway i ?_, h.commands, h.retries, h.executions⟩,
        fun _ hd => hd⟩
      rw [hinstances]
      exact (List.sublist_cons_self _ _).append_left _ |>.subset hi
  | createExecution hserves _ _ _ => exact of_store h fun _ _ _ => h.declared hserves
  | requestExecution _ _ _ _ _ _ hp hpublish =>
      refine publish h hpublish rfl (fun hretry => ?_) rfl rfl rfl
      rw [hp] at hretry
      cases hretry
  | announce _ hp hpublish =>
      refine publish h hpublish rfl (fun hretry => ?_) rfl rfl rfl
      rw [hp] at hretry
      cases hretry
  | arrive _ hpublish => exact publish h hpublish rfl (fun hretry => by cases hretry) rfl rfl rfl
  | expire hexpire => exact TopologyKept.expire h hexpire
  | @consume queue before after message hqueue _ =>
      have hothers : ∀ queue ∈ deadLetterQueue :: FlowPilotQueue.forEvents.map (·.literal),
          queue ≠ commandQueue ∧ queue ∉ retryQueues := by decide
      obtain ⟨hcommand, hretry⟩ := hothers queue hqueue
      refine of_messages h rfl rfl (fun message' hmem => ?_) (fun queue' hqueue' hne => ?_)
        h.executions
      · rw [Function.update_of_ne (Ne.symm hcommand)] at hmem
        exact h.commands _ hmem
      · have hother : queue' ≠ queue := fun heq => hretry (heq ▸ hqueue')
        rw [Function.update_of_ne hother] at hne
        exact h.retries queue' hqueue' hne

end TopologyKept

/-! ## Sound states -/

/-- The world is sound, and so is every thread: the worker has declared its
topology, and a delivery's message came as a command. -/
structure BrokerSound (s : BrokerPool) : Prop where
  world : TopologySound s.world
  worker : ∀ t th, s.threads t = some th → s.world.Declared .executionWorker
  delivery : ∀ t th message, s.threads t = some th → th.info = .delivery message →
    message.routingKey = requestedKey

section

variable [Runtime] {env : Environment} {s s' : BrokerPool} {l : WorkerLabel}

theorem ReachableBroker.sends (h : ReachableBroker env s) :
    s.Conform (.ofSafe fun job _ op => job.Sends op) :=
  Pool.Reachable.obeys (fun job => safe_of_spec job.program_sends (fun _ _ hop => hop) []) h

/-- What a call does to the world of a sound state. -/
theorem BrokerSound.exec (hsound : BrokerSound s) (h : ReachableBroker env s) {t : Nat}
    {info : Job} {history : WorkerHistory} {op : WorkerOp}
    {k : Except JsError op.Result → Worker Unit}
    {reply : Reply JsError op.Result} {w' : BrokerWorld}
    (hth : s.threads t = some ⟨info, history, .call op k⟩)
    (hexec : env.execBroker op s.world reply w') : TopologyKept s.world w' := by
  have hrun : ∀ ctx place r, op.runBroker ctx place s.world = some (r, w') →
      TopologyKept s.world w' := by
    intro ctx place r hrun
    refine TopologyKept.run hsound.world hrun (hsound.worker t _ hth) ?_
    rintro message allUpTo requeue rfl
    exact hsound.delivery t _ message hth (h.sends.next hth)
  cases reply with
  | ok r =>
      obtain ⟨-, ctx, place, hcall⟩ := hexec
      exact hrun ctx place r hcall
  | lost e =>
      obtain ⟨-, ctx, place, r, hcall⟩ := hexec
      exact hrun ctx place r hcall
  | failed e =>
      obtain ⟨-, rfl⟩ := hexec
      exact .of_store hsound.world hsound.world.executions

omit [Runtime] in
theorem BrokerSound.spawn (hsound : BrokerSound s) {info : Job} {w' : BrokerWorld}
    (hspawn : StartBrokerJob info s.world w') : TopologyKept s.world w' := by
  cases hspawn with
  | delivery _ hmessages =>
      refine .setCommands hsound.world fun message' hmem => hsound.world.commands _ ?_
      rw [hmessages]
      exact List.mem_cons_of_mem _ hmem
  | outboxDispatcher _ => exact .of_store hsound.world hsound.world.executions

omit [Runtime] in
theorem BrokerSound.stop (hsound : BrokerSound s) {t : Nat} {th : WorkerThread}
    {w' : BrokerWorld} (hth : s.threads t = some th)
    (hstop : StopBrokerJob th.info th.history s.world w') : TopologyKept s.world w' := by
  have hsame : TopologyKept s.world s.world := .of_store hsound.world hsound.world.executions
  obtain ⟨info, history, q⟩ := th
  cases hstop with
  | requeue place _ => exact .requeue hsound.world (hsound.delivery t _ _ hth rfl) place
  | settled _ => exact hsame
  | outboxDispatcher => exact hsame

theorem BrokerSound.step (hsound : BrokerSound s) (h : ReachableBroker env s)
    (hs : Pool.Step (brokerSystem env) s l s') : BrokerSound s' := by
  have hkept : TopologyKept s.world s'.world := by
    cases hs with
    | act hth hexec => exact hsound.exec h hth hexec
    | spawn _ hspawn => exact hsound.spawn hspawn
    | stop hth hstop => exact hsound.stop hth hstop
    | env henv => exact .step hsound.world henv
  refine ⟨hkept.sound, fun t th hth => ?_, fun t th message hth hinfo => ?_⟩
  · have hworker : s.world.Declared .executionWorker := by
      rcases hs.thread_cases hth with
        hold | ⟨info, -, hspawn, -⟩ | ⟨info, history, op, k, reply, -, hold, -⟩
      · exact hsound.worker t th hold
      · exact hsound.world.declared hspawn.serves
      · exact hsound.worker t _ hold
    exact fun d hd => hkept.has d (hworker d hd)
  · rcases hs.thread_cases hth with
      hold | ⟨info, -, hspawn, rfl⟩ | ⟨info, history, op, k, reply, -, hold, -, rfl⟩
    · exact hsound.delivery t th message hold hinfo
    · obtain rfl : info = .delivery message := hinfo
      exact hsound.world.commands _ hspawn.mem_commands
    · exact hsound.delivery t _ message hold hinfo

/-- Every reachable state is sound. -/
theorem ReachableBroker.sound (h : ReachableBroker env s) : BrokerSound s := by
  induction h with
  | start hw =>
      subst hw
      exact ⟨topologySound_empty, by simp, by simp⟩
  | step hreach _ hs ih => exact ih.step hreach hs

end

end FlowPilot
