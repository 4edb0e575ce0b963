import FlowPilot.Api.RequestExecution
import FlowPilot.Lib.Pool
import FlowPilot.System.Lifecycle
import FlowPilot.Worker.Discipline

/-!
# The running system

The store, the queues, and any number of workers over them. A thread is one
delivery being handled or one cycle of an outbox dispatcher. Besides the
threads' calls the world moves by itself: the API creates executions and
publishes their commands, foreign messages arrive, and retry queues return
what they hold. A thread may be stopped between two calls; a delivery that
was not settled then goes back to its queue.

Every call may fail, without effect or after taking effect, except those
that are `Infallible`.
-/

namespace FlowPilot

/-! ## The world -/

structure World where
  store : Store
  /-- The queue of the worker. -/
  commands : List ConsumeMessage
  /-- The retry queues together. -/
  retries : List ConsumeMessage
  /-- What was published to the dead-letter exchange. -/
  deadLetters : List Publication
  /-- What was published to the events exchange. -/
  events : List Publication
  /-- The executions whose request the API has answered. -/
  requested : List String

def World.empty : World := ⟨.empty, [], [], [], [], []⟩

/-- What the broker does with a publication that it takes. -/
def World.take (w : World) (p : Publication) : World :=
  match p.exchange with
  | .commands => { w with commands := w.commands ++ [p.toMessage] }
  | .retry => { w with retries := w.retries ++ [p.toMessage] }
  | .dlx => { w with deadLetters := w.deadLetters ++ [p] }
  | .events => { w with events := w.events ++ [p] }

/-- What the outside decides about a call: the database's part, whether the
broker's buffer has room, and the output of a node. -/
structure CallContext extends DbContext where
  accepted : Bool
  output : Record

/-- The effect of a call that is not refused. -/
def WorkerOp.run : (op : WorkerOp) → CallContext → World → Option (op.Result × World)
  | .newDate, ctx, w => some (ctx.now, w)
  | .randomUUID, ctx, w => some (ctx.uuid, w)
  | .db c, ctx, w => (c.run ctx.toDbContext w.store).map fun (r, s) => (r, { w with store := s })
  | .publish p, ctx, w => some (ctx.accepted, w.take p)
  | .executeWorkflowNode node context, ctx, w =>
      some (if node.type = .manualTrigger then executeManualTriggerNode context else ctx.output, w)
  | .ack _, _, w => some ((), w)
  | .nack message _ requeue, _, w =>
      some ((), if requeue then { w with commands := w.commands ++ [message] } else w)

/-! ## The environment -/

/-- What is left open: the executors of the nodes other than triggers, the
executions the API creates, and the foreign messages that arrive. -/
structure Environment where
  executor : WorkflowNode → WorkflowNodeExecutionContext → Record → Prop
  creates : String → WorkflowExecutionRow → Prop
  arrives : ConsumeMessage → Prop

/-- The answers the environment allows. -/
def Environment.Answers (env : Environment) : (op : WorkerOp) → op.Result → Prop
  | .executeWorkflowNode node context, output =>
      node.type = .manualTrigger ∨ env.executor node context output
  | _, _ => True

/-- The errors a call may throw; only executors throw the worker's own. -/
def WorkerOp.Throws : WorkerOp → JsError → Prop
  | .executeWorkflowNode _ _, _ => True
  | op, e => ¬ op.Infallible ∧ ∃ message, e = .error message

/-- One call against the world. -/
def Environment.exec (env : Environment) (op : WorkerOp) (w : World)
    (reply : Reply JsError op.Result) (w' : World) : Prop :=
  match reply with
  | .ok r => env.Answers op r ∧ ∃ ctx, op.run ctx w = some (r, w')
  | .lost e => op.Throws e ∧ ∃ ctx r, op.run ctx w = some (r, w')
  | .failed e => op.Throws e ∧ w' = w

/-! ## Steps of the world -/

/-- The steps of the world itself. -/
inductive EnvStep [Runtime] (env : Environment) : World → World → Prop
  /-- The first half of `requestExecution`: the row is created. -/
  | createExecution {w : World} {id : String} {row : WorkflowExecutionRow} :
      w.store.executions id = none → row.IsNew → env.creates id row →
      EnvStep env w
        { w with store := { w.store with
            executions := Function.update w.store.executions id (some row) } }
  /-- The second half, once for an execution: the command is published and
  confirmed. -/
  | requestExecution {w : World} {execution : WorkflowExecution}
      (eventId occurredAt actorUserId : String) :
      w.store.findExecution execution.id = some execution → execution.id ∉ w.requested →
      EnvStep env w
        { w.take (requestPublication (requestCommand execution eventId occurredAt actorUserId))
          with requested := w.requested ++ [execution.id] }
  | arrive {w : World} {message : ConsumeMessage} :
      env.arrives message → EnvStep env w { w with commands := w.commands ++ [message] }
  /-- The time of a retry copy is over: its queue dead-letters it to the
  commands queue. -/
  | retryExpires {w : World} {before after : List ConsumeMessage} {message : ConsumeMessage} :
      w.retries = before ++ message :: after →
      EnvStep env w
        { w with
          retries := before ++ after
          commands := w.commands ++ [{ message with
            routingKey := FlowPilotRoutingKey.workflowExecutionRequested.literal }] }

/-! ## Threads -/

inductive Job where
  | delivery (message : ConsumeMessage)
  | outboxDispatcher

def Job.program [Runtime] : Job → Worker Unit
  | .delivery message => handleDelivery message
  | .outboxDispatcher => outboxDispatcherCycle

/-- Starting a thread: a delivery takes its message from the queue. -/
inductive StartJob : Job → World → World → Prop
  | delivery {w : World} {before after : List ConsumeMessage} {message : ConsumeMessage} :
      w.commands = before ++ message :: after →
      StartJob (.delivery message) w { w with commands := before ++ after }
  | outboxDispatcher {w : World} : StartJob .outboxDispatcher w w

/-- A crash: an unsettled delivery goes back to the queue. -/
inductive StopJob : Job → WorkerHistory → World → World → Prop
  | requeue {w : World} {message : ConsumeMessage} {h : WorkerHistory} :
      ¬ Settled h →
      StopJob (.delivery message) h w { w with commands := w.commands ++ [message] }
  | settled {w : World} {message : ConsumeMessage} {h : WorkerHistory} :
      Settled h → StopJob (.delivery message) h w w
  | outboxDispatcher {w : World} {h : WorkerHistory} : StopJob .outboxDispatcher h w w

/-- The workers, the API and the broker together. -/
def workerSystem [Runtime] (env : Environment) :
    PoolSystem World Job WorkerOp WorkerOp.Result JsError where
  exec := env.exec
  program := Job.program
  spawn := StartJob
  stop := StopJob
  env := EnvStep env

abbrev WorkerPool := Pool Nat World Job WorkerOp WorkerOp.Result JsError

abbrev WorkerLabel := Pool.Label Nat Job WorkerOp WorkerOp.Result JsError

abbrev WorkerThread := Thread Job WorkerOp WorkerOp.Result JsError

/-- A step is a call of a thread or a step of the world itself; or a thread
starts or ends, which moves commands only. -/
theorem workerStep_cases [Runtime] {env : Environment} {s s' : WorkerPool} {l : WorkerLabel}
    (hs : Pool.Step (workerSystem env) s l s') :
    (∃ t info h op k reply, l = .act t ⟨op, reply⟩ ∧ s.threads t = some ⟨info, h, .call op k⟩
      ∧ env.exec op s.world reply s'.world
      ∧ s'.threads = Function.update s.threads t
        (some ⟨info, h ++ [⟨op, reply⟩], k reply.result⟩))
    ∨ (l = .env ∧ EnvStep env s.world s'.world)
    ∨ (∀ t ev, l ≠ .act t ev) ∧ ∃ commands, s'.world = { s.world with commands } := by
  cases hs with
  | act hth hexec => exact Or.inl ⟨_, _, _, _, _, _, rfl, hth, hexec, rfl⟩
  | env henv => exact Or.inr (Or.inl ⟨rfl, henv⟩)
  | spawn _ hspawn => cases hspawn <;> exact Or.inr (Or.inr ⟨by simp, _, rfl⟩)
  | @stop w w' threads t th _ hstop =>
      obtain ⟨info, h, p⟩ := th
      cases hstop <;> exact Or.inr (Or.inr ⟨by simp, _, rfl⟩)

/-- The states of every run from an empty system. -/
def ReachableSystem [Runtime] (env : Environment) (s : WorkerPool) : Prop :=
  Pool.Reachable (workerSystem env) (· = .empty) (fun _ _ => True) s

end FlowPilot
