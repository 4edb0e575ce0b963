import FlowPilot.Worker.Effects

/-!
# The client of the AI orchestrator

`AiOrchestratorClient.runPrompt`: the request it sends, and what it makes of
every way the call can end. `fetch` is a parameter; it answers, aborts or
throws something else.

A failed call is classified twice. A JSON body goes through
`isRetryableAiOrchestratorFailure`, which looks at the status. A body that is
not JSON never gets there: `readResponseBody` throws an error of its own, and
that one is retryable under every status (`runPrompt_classified_iff`).
-/

namespace FlowPilot

/-! ## Requests and responses -/

/-- The argument of `aiOrchestratorClient.runPrompt`. -/
structure AiPromptRunInput where
  workspaceId : String
  workflowId : String
  executionId : String
  nodeExecutionId : String
  nodeId : String
  correlationId : String
  input : Record
  provider : String
  credentialId : Option String
  model : String
  systemPrompt : Option String
  prompt : String
  temperature : Rat

/-- The request of `executeAiPromptActionNode`. -/
def executeAiPromptActionNode (node : WorkflowNode) (config : AiPromptConfig)
    (context : WorkflowNodeExecutionContext) : AiPromptRunInput where
  workspaceId := context.message.workspaceId
  workflowId := context.message.workflowId
  executionId := context.message.executionId
  nodeExecutionId := context.nodeExecutionId
  nodeId := node.id
  correlationId := context.message.correlationId
  input := context.input
  provider := config.provider.val
  credentialId := config.credentialId.map (·.val)
  model := config.model.val
  systemPrompt := config.systemPrompt.map (·.val)
  prompt := config.prompt.val
  temperature := config.temperature.val

/-- `context` of the payload. -/
def payloadContext (request : AiPromptRunInput) : Record :=
  [("workspaceId", .str request.workspaceId), ("workflowId", .str request.workflowId),
    ("executionId", .str request.executionId), ("nodeExecutionId", .str request.nodeExecutionId),
    ("nodeId", .str request.nodeId), ("correlationId", .str request.correlationId)]

/-- `config` of the payload. -/
def payloadConfig (request : AiPromptRunInput) : Record :=
  [("prompt", .str request.prompt)]
    ++ (request.systemPrompt.map fun s => ("systemPrompt", Json.str s)).toList
    ++ [("provider", .str request.provider)]
    ++ (request.credentialId.map fun s => ("credentialId", Json.str s)).toList
    ++ [("model", .str request.model), ("temperature", .num request.temperature)]

def createPromptRunPayload (request : AiPromptRunInput) : Json :=
  .obj [("context", .obj (payloadContext request)), ("config", .obj (payloadConfig request)),
    ("input", .obj request.input)]

/-- The arguments of `fetch`; the body is the text of a JSON value. -/
structure FetchRequest where
  url : String
  method : String
  contentType : String
  body : Json

/-- A response; `json` is `none` where `response.json()` rejects. -/
structure Response where
  status : Nat
  json : Option Json

/-- `response.ok`. -/
def Response.ok (response : Response) : Bool :=
  decide (200 ≤ response.status) && decide (response.status ≤ 299)

/-- How `fetch` ends; `threw none` is a thrown value that is no `Error`. -/
inductive FetchOutcome where
  | response (response : Response)
  | aborted
  | threw (message : Option String)

/-! ## Classification -/

/-- `isRetryableStatus`. -/
def isRetryableStatus (statusCode : Nat) : Bool :=
  statusCode == 408 || statusCode == 429 || decide (500 ≤ statusCode)

structure ParsedProviderError where
  code : Option String
  message : Option String
  providerStatus : Option Rat

/-- `parseProviderError`. -/
def parseProviderError (responseBody : Json) : ParsedProviderError :=
  match responseBody.get? "detail" with
  | some (.str detail) => ⟨none, some detail, none⟩
  | some (.obj detail) =>
      { code := match detail.lookup "code" with
          | some (.str code) => some code
          | _ => none
        message := match detail.lookup "message" with
          | some (.str message) => some message
          | _ => none
        providerStatus := match detail.lookup "status" with
          | some (.num status) => some status
          | _ => none }
  | _ => ⟨none, none, none⟩

/-- `isRetryableAiOrchestratorFailure`. -/
def isRetryableAiOrchestratorFailure (statusCode : Nat) (providerError : ParsedProviderError) :
    Bool :=
  if providerError.code = some "ai_provider_error" ∧ providerError.providerStatus = some 429 then
    false
  else isRetryableStatus statusCode

/-- `readResponseBody`. -/
def readResponseBody (response : Response) : Except JsError Json :=
  match response.json with
  | some body => .ok body
  | none => .error (.aiOrchestratorClientError "ai_orchestrator_invalid_json"
      "AI orchestrator response body was not valid JSON" true (some response.status) none)

/-! ## The client -/

structure AiOrchestratorClient where
  baseUrl : String
  timeoutMs : Nat := 5000

namespace AiOrchestratorClient

variable (client : AiOrchestratorClient) (fetch : FetchRequest → FetchOutcome)
  (request : AiPromptRunInput)

def fetchRequest : FetchRequest where
  url := client.baseUrl ++ "/v1/prompts/run"
  method := "POST"
  contentType := "application/json"
  body := createPromptRunPayload request

/-- The `try` block once `fetch` has answered. -/
def readResult (response : Response) : Except JsError Record := do
  let data ← readResponseBody response
  if response.ok then
    match data with
    | .obj fields =>
        match fields.lookup "result" with
        | some (.obj result) => .ok result
        | _ => malformed data
    | _ => malformed data
  else
    let providerError := parseProviderError data
    .error (.aiOrchestratorClientError
      (providerError.code.getD ("ai_orchestrator_http_" ++ toString response.status))
      (providerError.message.getD
        ("AI orchestrator request failed with status " ++ toString response.status))
      (isRetryableAiOrchestratorFailure response.status providerError)
      (some response.status) (some data))
where
  malformed (data : Json) : Except JsError Record :=
    .error (.aiOrchestratorClientError "ai_orchestrator_malformed_response"
      "AI orchestrator response did not include a result object" true
      (some response.status) (some data))

/-- `runPrompt`. What the `try` block throws after `fetch` is an
`AiOrchestratorClientError` already, and the `catch` block lets it pass. -/
def runPrompt : Except JsError Record :=
  match fetch (client.fetchRequest request) with
  | .response response => readResult response
  | .aborted => .error (.aiOrchestratorClientError "ai_orchestrator_timeout"
      ("AI orchestrator request timed out after " ++ toString client.timeoutMs ++ "ms") true
      none none)
  | .threw message => .error (.aiOrchestratorClientError "ai_orchestrator_unavailable"
      (message.getD "AI orchestrator request failed") true none none)

/-- The executor of AI prompts. -/
def executeAiPromptActionNode (node : WorkflowNode) (config : AiPromptConfig)
    (context : WorkflowNodeExecutionContext) : Except JsError Record :=
  client.runPrompt fetch (FlowPilot.executeAiPromptActionNode node config context)

variable {client fetch request} {response : Response}

theorem runPrompt_response (hfetch : fetch (client.fetchRequest request) = .response response) :
    client.runPrompt fetch request = readResult response := by
  rw [runPrompt, hfetch]

theorem readResult_of_notJson (hjson : response.json = none) :
    readResult response = .error (.aiOrchestratorClientError "ai_orchestrator_invalid_json"
      "AI orchestrator response body was not valid JSON" true (some response.status) none) := by
  simp only [readResult, readResponseBody, hjson]
  rfl

theorem readResult_of_failed {data : Json} (hjson : response.json = some data)
    (hok : response.ok = false) :
    ∃ code message, readResult response = .error (.aiOrchestratorClientError code message
      (isRetryableAiOrchestratorFailure response.status (parseProviderError data))
      (some response.status) (some data)) := by
  simp only [readResult, readResponseBody, hjson, hok]
  exact ⟨_, _, rfl⟩

end AiOrchestratorClient

/-! ## Failed responses -/

/-- A body that reports a provider's rate limit: an object whose `detail` has
the code and the status of one. -/
def ReportsProviderRateLimit (body : Option Json) : Prop :=
  ∃ fields detail, body = some (.obj fields) ∧ fields.lookup "detail" = some (.obj detail)
    ∧ detail.lookup "code" = some (.str "ai_provider_error")
    ∧ detail.lookup "status" = some (.num 429)

theorem parseProviderError_rateLimit {data : Json} :
    ((parseProviderError data).code = some "ai_provider_error"
      ∧ (parseProviderError data).providerStatus = some 429)
      ↔ ReportsProviderRateLimit (some data) := by
  unfold parseProviderError
  constructor
  · intro h
    split at h
    · cases h.1
    · rename_i detail hdetail
      cases data with
      | obj fields =>
          refine ⟨fields, detail, rfl, hdetail, ?_, ?_⟩
          · obtain ⟨hcode, -⟩ := h
            dsimp only at hcode
            split at hcode
            · rename_i code hlookup
              rw [hlookup, Option.some.inj hcode]
            · cases hcode
          · obtain ⟨-, hstatus⟩ := h
            dsimp only at hstatus
            split at hstatus
            · rename_i status hlookup
              rw [hlookup, Option.some.inj hstatus]
            · cases hstatus
      | _ => cases hdetail
    · cases h.1
  · rintro ⟨fields, detail, hdata, hdetail, hcode, hstatus⟩
    obtain rfl := Option.some.inj hdata
    rw [show (Json.obj fields).get? "detail" = some (.obj detail) from hdetail]
    simp [hcode, hstatus]

theorem isRetryableAiOrchestratorFailure_iff {statusCode : Nat} {data : Json} :
    isRetryableAiOrchestratorFailure statusCode (parseProviderError data) = true
      ↔ isRetryableStatus statusCode = true ∧ ¬ ReportsProviderRateLimit (some data) := by
  rw [isRetryableAiOrchestratorFailure, ← parseProviderError_rateLimit]
  split
  · rename_i hlimit
    simp [hlimit]
  · rename_i hlimit
    simp [hlimit]

/-- The error of a failed response, as its status and its body classify it. -/
def ClassifiedByStatus (response : Response) (outcome : Except JsError Record) : Prop :=
  ∃ code message retryable responseBody,
    outcome = .error (.aiOrchestratorClientError code message retryable (some response.status)
      responseBody)
    ∧ (retryable = true ↔
      (response.status = 408 ∨ response.status = 429 ∨ 500 ≤ response.status)
        ∧ ¬ ReportsProviderRateLimit response.json)

theorem isRetryableStatus_iff {statusCode : Nat} :
    isRetryableStatus statusCode = true
      ↔ statusCode = 408 ∨ statusCode = 429 ∨ 500 ≤ statusCode := by
  simp [isRetryableStatus, or_assoc]

theorem classifiedByStatus_of_json {response : Response} {data : Json}
    (hjson : response.json = some data) (hok : response.ok = false) :
    ClassifiedByStatus response (AiOrchestratorClient.readResult response) := by
  obtain ⟨code, message, heq⟩ := AiOrchestratorClient.readResult_of_failed hjson hok
  refine ⟨code, message, _, _, heq, ?_⟩
  rw [isRetryableAiOrchestratorFailure_iff, isRetryableStatus_iff, hjson]

/-- A body that is not JSON cannot report a rate limit, so the classification
asks for the flag of the status alone; the error has it set. -/
theorem classifiedByStatus_iff_of_notJson {response : Response} (hjson : response.json = none) :
    ClassifiedByStatus response (AiOrchestratorClient.readResult response)
      ↔ isRetryableStatus response.status = true := by
  have hlimit : ¬ ReportsProviderRateLimit response.json := by
    rintro ⟨fields, detail, hbody, -⟩
    cases hjson.symm.trans hbody
  rw [AiOrchestratorClient.readResult_of_notJson hjson, isRetryableStatus_iff]
  constructor
  · rintro ⟨code, message, retryable, responseBody, herror, hretryable⟩
    simp only [Except.error.injEq, JsError.aiOrchestratorClientError.injEq] at herror
    exact (hretryable.mp herror.2.2.1.symm).1
  · intro hstatus
    exact ⟨_, _, _, _, rfl, by simp [hstatus, hlimit]⟩

/-- A failed response is classified by its status and its body exactly where
the body is JSON or the status is a retryable one. -/
theorem runPrompt_classified_iff (client : AiOrchestratorClient)
    (fetch : FetchRequest → FetchOutcome) (request : AiPromptRunInput) (response : Response)
    (hfetch : fetch (client.fetchRequest request) = .response response)
    (hok : response.ok = false) :
    ClassifiedByStatus response (client.runPrompt fetch request)
      ↔ response.json ≠ none ∨ isRetryableStatus response.status = true := by
  rw [AiOrchestratorClient.runPrompt_response hfetch]
  cases hjson : response.json with
  | some data => simp [classifiedByStatus_of_json hjson hok]
  | none => simp [classifiedByStatus_iff_of_notJson hjson]

/-- A 422 with a JSON body. -/
theorem runPrompt_classified_unprocessable :
    let request : AiPromptRunInput :=
      ⟨"", "", "", "", "", "", [], "unknown", none, "model", none, "prompt", 0⟩
    let body : Json := .obj [("detail", .obj [("code", .str "unknown_ai_provider")])]
    ClassifiedByStatus ⟨422, some body⟩
      ((AiOrchestratorClient.mk "" 5000).runPrompt (fun _ => .response ⟨422, some body⟩) request)
      ↔ some body ≠ none ∨ isRetryableStatus 422 = true :=
  runPrompt_classified_iff _ _ _ ⟨422, _⟩ rfl rfl

/-- A 404 whose body is not JSON: the error it becomes is retryable. -/
theorem runPrompt_not_classified_notFound :
    let request : AiPromptRunInput :=
      ⟨"", "", "", "", "", "", [], "deterministic", none, "model", none, "prompt", 0⟩
    ¬ ClassifiedByStatus ⟨404, none⟩
      ((AiOrchestratorClient.mk "" 5000).runPrompt (fun _ => .response ⟨404, none⟩) request) := by
  rintro request ⟨code, message, retryable, responseBody, herror, hretryable⟩
  obtain ⟨-, -, rfl, -⟩ := JsError.aiOrchestratorClientError.inj (Except.error.inj herror)
  have hstatus := (hretryable.mp rfl).1
  revert hstatus
  decide

end FlowPilot
