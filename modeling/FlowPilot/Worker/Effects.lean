import FlowPilot.Lib.Prog
import FlowPilot.Worker.Store

/-!
# The worker's calls

What the worker does to the outside world, one call at a time: it reads the
clock, draws ids, calls the database, publishes, runs a node's executor, and
settles its delivery. A worker function is a program (`Prog`) over these
calls, so it can be run against every reply and interleaved with others.

The clock, the id generator and the settling of a delivery do not throw
(`Infallible`); every other call may.
-/

namespace FlowPilot

/-- `WorkflowNodeExecutionContext`, without the client. -/
structure WorkflowNodeExecutionContext where
  input : Record
  message : WorkflowExecutionRequestedMessage
  nodeExecutionId : String

inductive WorkerOp where
  | newDate
  | randomUUID
  | db (c : DbCall)
  | publish (p : Publication)
  | executeWorkflowNode (node : WorkflowNode) (context : WorkflowNodeExecutionContext)
  | ack (message : ConsumeMessage)
  | nack (message : ConsumeMessage) (allUpTo requeue : Bool)

namespace WorkerOp

def Result : WorkerOp → Type
  | newDate => Int
  | randomUUID => String
  | db c => c.Result
  | publish _ => Bool
  | executeWorkflowNode _ _ => Record
  | ack _ => Unit
  | nack _ _ _ => Unit

/-- The calls that do not throw. -/
def Infallible : WorkerOp → Prop
  | newDate => True
  | randomUUID => True
  | ack _ => True
  | nack _ _ _ => True
  | _ => False

/-- Acknowledging a delivery or giving it back. -/
def Settles : WorkerOp → Prop
  | ack _ => True
  | nack _ _ _ => True
  | _ => False

end WorkerOp

abbrev Worker (α : Type) := Prog WorkerOp WorkerOp.Result JsError α

abbrev WorkerEvent := Event WorkerOp WorkerOp.Result JsError

abbrev WorkerHistory := List WorkerEvent

/-- Make one call. -/
def call (op : WorkerOp) : Worker op.Result := Prog.perform op

/-- `new Date()` and `Date.now()`. -/
def newDate : Worker Int := call .newDate

def randomUUID : Worker String := call .randomUUID

def db (c : DbCall) : Worker c.Result := call (.db c)

/-- `channel.publish`. -/
def publish (p : Publication) : Worker Bool := call (.publish p)

/-- `channel.ack`. -/
def ack (message : ConsumeMessage) : Worker Unit := call (.ack message)

/-- `channel.nack`. -/
def nack (message : ConsumeMessage) (allUpTo requeue : Bool) : Worker Unit :=
  call (.nack message allUpTo requeue)

/-- The result of a function that calls nothing. -/
def ofExcept {α : Type} : Except JsError α → Worker α
  | .ok a => .pure a
  | .error e => .throw e

@[simp] theorem ofExcept_ok_bind {α β : Type} (a : α) (f : α → Worker β) :
    (ofExcept (.ok a) >>= f) = f a := rfl

@[simp] theorem ofExcept_error_bind {α β : Type} (e : JsError) (f : α → Worker β) :
    (ofExcept (.error e) >>= f) = .throw e := rfl

end FlowPilot
