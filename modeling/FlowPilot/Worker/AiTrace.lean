import FlowPilot.Worker.Messages

/-!
# AI traces

The record the worker keeps of an AI call: the data it computes for a node
that succeeded or failed, and the event built from it.
-/

namespace FlowPilot

/-- `WorkflowAiTraceCreateData`. -/
structure WorkflowAiTraceCreateData where
  workspaceId : String
  workflowId : String
  workflowExecutionId : String
  nodeExecutionId : String
  nodeId : String
  credentialId : Option String
  provider : String
  model : String
  succeeded : Bool
  latencyMs : Int
  providerLatencyMs : Option Nat
  finishReason : Option String
  inputTokenCount : Option Nat
  outputTokenCount : Option Nat
  totalTokenCount : Option JsNumber
  estimatedCostUsd : Option JsNumber
  inputSizeBytes : Nat
  outputSizeBytes : Option Nat
  schemaValid : Option Bool
  errorCode : Option String
  errorMessage : Option String
  providerStatusCode : Option Rat
  retryable : Option Bool

/-- A row of the trace table. -/
structure WorkflowAiTrace extends WorkflowAiTraceCreateData where
  id : String
  createdAt : Int

/-- `getNonNegativeIntegerOrNull`, of a number as `JSON.parse` reads it. -/
def getNonNegativeIntegerOrNull : Option Json → Option Nat
  | some (.num q) => (JsNumber.nearestDouble q).natural?
  | _ => none

/-- `getNonNegativeInteger`. -/
def getNonNegativeInteger (value : Option Json) : Nat :=
  (getNonNegativeIntegerOrNull value).getD 0

structure AiProviderTrace where
  providerLatencyMs : Option Nat
  finishReason : Option String

def getAiProviderTrace (output : Record) : AiProviderTrace :=
  let trace := Json.asRecord (output.lookup "trace")
  { providerLatencyMs := getNonNegativeIntegerOrNull (trace.lookup "providerLatencyMs")
    finishReason := match trace.lookup "finishReason" with
      | some (.str s) => if s = "" then none else some s
      | _ => none }

structure AiTokenUsage where
  input : Nat
  output : Nat

def getAiTokenUsage (output : Record) : AiTokenUsage :=
  let tokens := Json.asRecord (output.lookup "tokens")
  ⟨getNonNegativeInteger (tokens.lookup "input"), getNonNegativeInteger (tokens.lookup "output")⟩

structure AiModelPricing where
  inputUsdPerMillionTokens : JsNumber
  outputUsdPerMillionTokens : JsNumber

def getAiModelPricing (provider model : String) : Option AiModelPricing :=
  if provider = "openrouter" ∧ model = "openai/gpt-4o-mini" then
    some ⟨.nearestDouble (15 / 100), .nearestDouble (6 / 10)⟩
  else none

def estimateAiCostUsd (provider model : String) (tokenUsage : AiTokenUsage) : Option JsNumber :=
  if provider = "deterministic" ∨ ":free".toList.isSuffixOf model.toList then some (.finite 0)
  else (getAiModelPricing provider model).map fun pricing =>
    (((JsNumber.finite tokenUsage.input).divNat 1000000).mul pricing.inputUsdPerMillionTokens).add
      (((JsNumber.finite tokenUsage.output).divNat 1000000).mul pricing.outputUsdPerMillionTokens)

-- every step rounds: these eleven tokens do not cost 0.00000165
example : estimateAiCostUsd "openrouter" "openai/gpt-4o-mini" ⟨11, 0⟩
    = some (.nearestDouble (16499999999999999 / 10 ^ 22)) := by decide +kernel

/-- `getProviderStatusCode`: the `status` of the error detail the AI
orchestrator passed on, when the failure was caused by its client. -/
def getProviderStatusCode (failure : WorkerFailure) : Option Rat :=
  match failure.cause with
  | some (.aiOrchestratorClientError _ _ _ _ (some responseBody)) =>
      match (responseBody.get? "detail").bind (·.get? "status") with
      | some (.num q) => some q
      | _ => none
  | _ => none

section

variable [Runtime] (m : WorkflowExecutionRequestedMessage) (node : WorkflowNode)
  (config : AiPromptConfig) (nodeExecutionId : String) (input : Record)

/-- The data `recordAiTraceForSuccessfulNode` stores. -/
def successfulTraceData (output : Record) (startedAt completedAt : Int) :
    WorkflowAiTraceCreateData :=
  let tokenUsage := getAiTokenUsage output
  let providerTrace := getAiProviderTrace output
  { workspaceId := m.workspaceId
    workflowId := m.workflowId
    workflowExecutionId := m.executionId
    nodeExecutionId
    nodeId := node.id
    credentialId := config.credentialId.map (·.val)
    provider := config.provider.val
    model := config.model.val
    succeeded := true
    latencyMs := completedAt - startedAt
    providerLatencyMs := providerTrace.providerLatencyMs
    finishReason := providerTrace.finishReason
    inputTokenCount := some tokenUsage.input
    outputTokenCount := some tokenUsage.output
    totalTokenCount := some ((JsNumber.finite tokenUsage.input).add (.finite tokenUsage.output))
    estimatedCostUsd := estimateAiCostUsd config.provider.val config.model.val tokenUsage
    inputSizeBytes := Runtime.jsonSizeBytes input
    outputSizeBytes := some (Runtime.jsonSizeBytes output)
    schemaValid := some true
    errorCode := none
    errorMessage := none
    providerStatusCode := none
    retryable := none }

/-- The data `recordAiTraceForFailedNode` stores. -/
def failedTraceData (failure : WorkerFailure) (startedAt failedAt : Int) :
    WorkflowAiTraceCreateData where
  workspaceId := m.workspaceId
  workflowId := m.workflowId
  workflowExecutionId := m.executionId
  nodeExecutionId
  nodeId := node.id
  credentialId := config.credentialId.map (·.val)
  provider := config.provider.val
  model := config.model.val
  succeeded := false
  latencyMs := failedAt - startedAt
  providerLatencyMs := none
  finishReason := none
  inputTokenCount := none
  outputTokenCount := none
  totalTokenCount := none
  estimatedCostUsd := none
  inputSizeBytes := Runtime.jsonSizeBytes input
  outputSizeBytes := none
  schemaValid := none
  errorCode := some failure.code
  errorMessage := some failure.message
  providerStatusCode := getProviderStatusCode failure
  retryable := some failure.retryable

end

def createAiTraceCreatedMessage (m : WorkflowExecutionRequestedMessage) (eventId : String)
    (trace : WorkflowAiTrace) : WorkflowLifecycleMessage :=
  createLifecycleMessage m .aiTraceCreated eventId (toISOString trace.createdAt)
    ("ai.trace.created:" ++ trace.id)
    (.aiTraceCreated
      { traceId := trace.id
        workflowId := trace.workflowId
        executionId := trace.workflowExecutionId
        nodeExecutionId := trace.nodeExecutionId
        nodeId := trace.nodeId
        model := trace.model
        provider := trace.provider
        latencyMs := trace.latencyMs
        providerLatencyMs := trace.providerLatencyMs
        finishReason := trace.finishReason
        inputTokens := trace.inputTokenCount.getD 0
        outputTokens := trace.outputTokenCount.getD 0
        totalTokens := trace.totalTokenCount.getD (.finite 0)
        estimatedCostUsd := trace.estimatedCostUsd
        succeeded := trace.succeeded
        errorCode := trace.errorCode
        providerStatusCode := trace.providerStatusCode
        retryable := trace.retryable })

end FlowPilot
