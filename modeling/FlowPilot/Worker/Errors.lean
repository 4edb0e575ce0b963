import FlowPilot.Json

/-!
# Thrown values

What the worker's code throws, and `normalizeWorkerFailure`, the
classification every handler applies to it.
-/

namespace FlowPilot

/-- A thrown value, by the two classes the worker tells apart. -/
inductive JsError where
  /-- `WorkflowExecutionWorkerError`. -/
  | workflowExecutionWorkerError (code message : String) (retryable : Bool)
      (cause : Option JsError)
  /-- `AiOrchestratorClientError`. -/
  | aiOrchestratorClientError (code message : String) (retryable : Bool)
      (statusCode : Option Nat) (responseBody : Option Json)
  /-- Any other `Error`. -/
  | error (message : String)

namespace JsError

/-- `error.message`. -/
def message : JsError → String
  | workflowExecutionWorkerError _ message _ _ => message
  | aiOrchestratorClientError _ message _ _ _ => message
  | error message => message

end JsError

/-- `FlowPilotExecutionError`. -/
structure FlowPilotExecutionError where
  code : String
  message : String
  retryable : Bool
deriving DecidableEq, Repr

/-- `WorkerFailure`. -/
structure WorkerFailure extends FlowPilotExecutionError where
  cause : Option JsError

def normalizeWorkerFailure : JsError → WorkerFailure
  | .workflowExecutionWorkerError code message retryable cause =>
      { code, message, retryable, cause }
  | .aiOrchestratorClientError code message retryable statusCode responseBody =>
      { code, message, retryable,
        cause := some (.aiOrchestratorClientError code message retryable statusCode responseBody) }
  | .error message =>
      { code := "workflow_execution_worker_error", message, retryable := true,
        cause := some (.error message) }

end FlowPilot
