import FlowPilot.Worker.AiOrchestratorClient

/-!
# The AI orchestrator

The service behind `POST /v1/prompts/run`: the request schema, the lookup of
credentials, the providers, their registry, and the exceptions of all of them
with the responses `run_prompt` turns them into. An exception that no
`except` clause names becomes the framework's own response, a 500 whose body
is not JSON.

What is behind the network - the credential endpoint of the API and the chat
completions of the providers - is a parameter (`Services`).
-/

namespace FlowPilot.AiOrchestrator

/-! ## Requests -/

structure PromptRunContext where
  workspaceId : String
  workflowId : String
  executionId : String
  nodeExecutionId : Option String
  nodeId : String
  correlationId : String

structure PromptRunConfig where
  prompt : String
  systemPrompt : Option String
  provider : String
  credentialId : Option String
  model : String
  temperature : Rat

structure PromptRunRequest where
  context : PromptRunContext
  config : PromptRunConfig
  input : Record

/-- The fields of an object that has no others (`extra="forbid"`). -/
def forbidExtra (names : List String) : Option Json → Option Record
  | some (.obj fields) => if fields.all (·.1 ∈ names) then some fields else none
  | _ => none

/-- `str`. -/
def str? : Option Json → Option String
  | some (.str s) => some s
  | _ => none

/-- `str | None = None`. -/
def optionalStr? : Option Json → Option (Option String)
  | none => some none
  | some .null => some none
  | some (.str s) => some (some s)
  | _ => none

/-- `Field(min_length=lo, max_length=hi)`, in code points. -/
def hasLength (lo hi : Nat) (s : String) : Bool :=
  decide (lo ≤ s.length) && decide (s.length ≤ hi)

def PromptRunContext.modelValidate (value : Option Json) : Option PromptRunContext := do
  let fields ← forbidExtra ["workspaceId", "workflowId", "executionId", "nodeExecutionId",
    "nodeId", "correlationId"] value
  let workspaceId ← str? (fields.lookup "workspaceId")
  let workflowId ← str? (fields.lookup "workflowId")
  let executionId ← str? (fields.lookup "executionId")
  let nodeExecutionId ← optionalStr? (fields.lookup "nodeExecutionId")
  let nodeId ← str? (fields.lookup "nodeId")
  let correlationId ← str? (fields.lookup "correlationId")
  some { workspaceId, workflowId, executionId, nodeExecutionId, nodeId, correlationId }

/-- A temperature is a number; what the library converts to one is left
out. -/
def PromptRunConfig.modelValidate (value : Option Json) : Option PromptRunConfig := do
  let fields ← forbidExtra ["prompt", "systemPrompt", "provider", "credentialId", "model",
    "temperature"] value
  let prompt ← str? (fields.lookup "prompt")
  let systemPrompt ← optionalStr? (fields.lookup "systemPrompt")
  let provider ← str? ((fields.lookup "provider").getD (.str "deterministic"))
  let credentialId ← optionalStr? (fields.lookup "credentialId")
  let model ← str? ((fields.lookup "model").getD (.str "mock-flowpilot-llm"))
  let temperature ← match (fields.lookup "temperature").getD (.num (1 / 5)) with
    | .num q => some q
    | _ => none
  if hasLength 1 2000 prompt && systemPrompt.all (hasLength 1 2000) && hasLength 1 80 provider
      && credentialId.all (hasLength 1 120) && hasLength 1 120 model
      && decide (0 ≤ temperature) && decide (temperature ≤ 2) then
    some { prompt, systemPrompt, provider, credentialId, model, temperature }
  else none

def PromptRunRequest.modelValidate (value : Json) : Option PromptRunRequest := do
  let fields ← forbidExtra ["context", "config", "input"] (some value)
  let context ← PromptRunContext.modelValidate (fields.lookup "context")
  let config ← PromptRunConfig.modelValidate (fields.lookup "config")
  match fields.lookup "input" with
  | some (.obj input) => some { context, config, input }
  | _ => none

/-! ## Exceptions -/

/-- The attributes of `ProviderError` that a response is made of. -/
structure ProviderError where
  message : String
  statusCode : Option Nat
  providerError : Option Json

inductive PythonException where
  | unknownProviderError (providerName : String)
  | providerConfigurationError (message provider : String)
  | openRouterProviderError (error : ProviderError)
  | openAiProviderError (error : ProviderError)
  | anthropicProviderError (error : ProviderError)
  | credentialNotFoundError (message : String)
  | credentialAccessDeniedError (message : String)
  | credentialClientError (message : String)
  /-- Any other exception. -/
  | exception

/-! ## Services -/

/-- How `httpx.get` ends. -/
inductive HttpxOutcome where
  | response (response : Response)
  | timeoutException
  | httpError
  | exception

/-- How the chat completion of a provider ends, with its reply parsed. -/
inductive Completion where
  | result (result : Record)
  | invalidResponse
  | timedOut
  | failedWithStatus (statusCode : Nat) (body : Option Json)
  | failed
  | exception

/-- What the service is configured with and talks to. -/
structure Services where
  flowpilotApiUrl : String
  flowpilotInternalApiToken : String
  httpxGet : (url authorization : String) → HttpxOutcome
  complete : (providerName credential : String) → PromptRunConfig → Record → Completion
  jsonDumps : Record → String
  validationErrors : Json → List Json

/-! ## Credentials -/

structure CredentialSecret where
  id : String
  workspaceId : String
  type : String
  kind : String
  capabilities : List String
  value : String

/-- `list[str]`. -/
def strList? : Option Json → Option (List String)
  | some (.arr items) => items.mapM fun item => str? (some item)
  | _ => none

/-- A field may go by its alias or by its name (`populate_by_name`). -/
def CredentialSecret.modelValidate (value : Json) : Option CredentialSecret := do
  let fields ← forbidExtra ["id", "workspaceId", "workspace_id", "type", "kind", "capabilities",
    "value"] (some value)
  let id ← str? (fields.lookup "id")
  let workspaceId ← match fields.lookup "workspaceId", fields.lookup "workspace_id" with
    | some workspaceId, none => str? (some workspaceId)
    | none, some workspaceId => str? (some workspaceId)
    | _, _ => none
  let type ← str? (fields.lookup "type")
  let kind ← str? (fields.lookup "kind")
  let capabilities ← strList? (fields.lookup "capabilities")
  let value ← str? (fields.lookup "value")
  some { id, workspaceId, type, kind, capabilities, value }

/-- `s.rstrip("/")`. -/
def rstripSlash (s : String) : String :=
  String.ofList (s.toList.reverse.dropWhile (· = '/')).reverse

section

variable (services : Services)

/-- The URL of a lookup. -/
def secretUrl (workspaceId credentialId : String) : String :=
  rstripSlash services.flowpilotApiUrl ++ "/internal/workspaces/" ++ workspaceId
    ++ "/credentials/" ++ credentialId ++ "/secret"

/-- `CredentialClient.get_secret`. -/
def getSecret (workspaceId credentialId : String) : Except PythonException CredentialSecret :=
  match services.httpxGet (secretUrl services workspaceId credentialId)
      ("Bearer " ++ services.flowpilotInternalApiToken) with
  | .timeoutException => throw (.credentialClientError "Credential lookup timed out")
  | .httpError => throw (.credentialClientError "Credential lookup failed")
  | .exception => throw .exception
  | .response response =>
      if response.status = 403 then
        throw (.credentialAccessDeniedError "Internal credential access denied")
      else if response.status = 404 then
        throw (.credentialNotFoundError "Credential not found")
      else if 400 ≤ response.status then
        throw (.credentialClientError
          ("Credential lookup failed with status " ++ toString response.status))
      else
        match response.json.bind CredentialSecret.modelValidate with
        | some credential => pure credential
        | none => throw (.credentialClientError "Credential lookup returned an invalid payload")

def ensureCredentialSupports (credential : CredentialSecret)
    (expectedType expectedKind requiredCapability : String) : Except PythonException Unit :=
  if credential.type ≠ expectedType then
    throw (.credentialClientError "Credential type does not match provider")
  else if credential.kind ≠ expectedKind then
    throw (.credentialClientError "Credential kind is not compatible")
  else if requiredCapability ∉ credential.capabilities then
    throw (.credentialClientError "Credential capability is missing")
  else pure ()

/-! ## Providers -/

/-- A provider behind the network. Its messages begin with its label. -/
structure CloudProvider where
  providerName : String
  label : String
  getCredential : Services → (workspaceId credentialId : String) → Except PythonException String
  providerError : ProviderError → PythonException

/-- `_get_credential`; the checks that follow it can not fail. -/
def getCredentialOfType (expectedType : String) (workspaceId credentialId : String) :
    Except PythonException String := do
  let credential ← getSecret services workspaceId credentialId
  ensureCredentialSupports credential expectedType "llm" "llm.chat"
  pure credential.value

def openRouterProvider : CloudProvider where
  providerName := "openrouter"
  label := "OpenRouter"
  getCredential services := getCredentialOfType services "openrouter"
  providerError := .openRouterProviderError

def openAiProvider : CloudProvider where
  providerName := "openai"
  label := "OpenAI"
  getCredential services := getCredentialOfType services "openai"
  providerError := .openAiProviderError

/-- Two types of credentials go with this provider. -/
def anthropicProvider : CloudProvider where
  providerName := "anthropic"
  label := "Anthropic"
  getCredential services workspaceId credentialId := do
    let credential ← getSecret services workspaceId credentialId
    if credential.type ∉ ["claude", "anthropic"] then
      throw (.credentialClientError "Credential type does not match provider")
    ensureCredentialSupports credential credential.type "llm" "llm.chat"
    pure credential.value
  providerError := .anthropicProviderError

/-- `run` of a provider behind the network. -/
def CloudProvider.run (provider : CloudProvider) (request : PromptRunRequest) :
    Except PythonException Record :=
  match request.config.credentialId with
  | none => throw (.providerConfigurationError (provider.label ++ " provider requires credentialId")
      provider.providerName)
  | some credentialId => do
      let credential ← provider.getCredential services request.context.workspaceId credentialId
      match services.complete provider.providerName credential request.config request.input with
      | .result result => pure result
      | .invalidResponse =>
          throw (provider.providerError ⟨provider.label ++ " returned an invalid response",
            none, none⟩)
      | .timedOut =>
          throw (provider.providerError ⟨provider.label ++ " request timed out", none, none⟩)
      | .failedWithStatus statusCode body =>
          throw (provider.providerError
            ⟨provider.label ++ " request failed with status " ++ toString statusCode,
              some statusCode, body⟩)
      | .failed => throw (provider.providerError ⟨provider.label ++ " request failed", none, none⟩)
      | .exception => throw .exception

/-- `DeterministicPromptProvider.run`. -/
def deterministicRun (request : PromptRunRequest) : Record :=
  let inputKeys := (request.input.map (·.1)).mergeSort
  let compactInput := services.jsonDumps request.input
  [("provider", .str "deterministic"), ("model", .str request.config.model),
    ("prompt", .str request.config.prompt), ("temperature", .num request.config.temperature),
    ("summary", .str ("Mock AI response for " ++ toString inputKeys.length ++ " input fields: "
      ++ (if inputKeys = [] then "none" else ", ".intercalate inputKeys) ++ ".")),
    ("tokens", .obj [
      ("input", .num ((request.config.prompt.length + compactInput.length + 3) / 4 : Nat)),
      ("output", .num (max 12 (((" ".intercalate inputKeys).length + 3) / 4) : Nat))]),
    ("trace", .obj [("deterministic", .bool true), ("inputKeys", .arr (inputKeys.map .str)),
      ("providerLatencyMs", .num 0), ("finishReason", .str "deterministic")])]

/-! ## The registry -/

inductive PromptProvider where
  | deterministic
  | cloud (provider : CloudProvider)

/-- `ProviderRegistry._providers`. -/
def providers : List (String × PromptProvider) :=
  [("deterministic", .deterministic), ("openrouter", .cloud openRouterProvider),
    ("openai", .cloud openAiProvider), ("claude", .cloud anthropicProvider),
    ("anthropic", .cloud anthropicProvider)]

/-- `ProviderRegistry.get`. -/
def registryGet (name : String) : Except PythonException PromptProvider :=
  match providers.lookup name with
  | some provider => pure provider
  | none => throw (.unknownProviderError name)

/-- `PromptService.run_prompt`. -/
def promptServiceRunPrompt (request : PromptRunRequest) : Except PythonException Record := do
  match ← registryGet request.config.provider with
  | .deterministic => pure (deterministicRun services request)
  | .cloud provider => provider.run services request

/-! ## The route -/

/-- The response to an `HTTPException`. -/
def httpException (statusCode : Nat) (detail : Record) : Response :=
  ⟨statusCode, some (.obj [("detail", .obj detail)])⟩

/-- The detail of a provider's error. -/
def providerErrorDetail (provider : String) (error : ProviderError) : Record :=
  [("code", .str "ai_provider_error"), ("provider", .str provider),
    ("status", Json.orNull (error.statusCode.map fun n => .num n)),
    ("message", .str error.message), ("providerError", Json.orNull error.providerError)]

/-- The `except` clauses of `run_prompt`, and the response to an exception
they do not name. -/
def exceptionResponse : PythonException → Response
  | .unknownProviderError providerName =>
      httpException 422 [("code", .str "unknown_ai_provider"),
        ("message", .str ("Unknown AI provider: " ++ providerName)),
        ("provider", .str providerName)]
  | .providerConfigurationError message provider =>
      httpException 422 [("code", .str "ai_provider_configuration_error"),
        ("message", .str message), ("provider", .str provider)]
  | .openRouterProviderError error => httpException 502 (providerErrorDetail "openrouter" error)
  | .openAiProviderError error => httpException 502 (providerErrorDetail "openai" error)
  | .anthropicProviderError error => httpException 502 (providerErrorDetail "claude" error)
  | _ => ⟨500, none⟩

/-- `run_prompt`, with the validation of the request before it. -/
def runPrompt (body : Json) : Response :=
  match PromptRunRequest.modelValidate body with
  | none => ⟨422, some (.obj [("detail", .arr (services.validationErrors body))])⟩
  | some request =>
      match promptServiceRunPrompt services request with
      | .ok result => ⟨200, some (.obj [("result", .obj result)])⟩
      | .error e => exceptionResponse e

end

end FlowPilot.AiOrchestrator
