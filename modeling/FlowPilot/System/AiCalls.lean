import FlowPilot.AiOrchestrator.Providers
import FlowPilot.System.AiCredentials
import FlowPilot.Web.AiErrors

/-!
# A call to a provider, end to end

An AI node whose credential is in order asks its provider. What the provider
answers goes through the orchestrator's parser, its route and the worker's
client before the worker records it; a failure goes on to the execution page.

`Exchange.nodeEnd` says what the node should end with, and
`executeAiPromptActionNode_nodeEnd` that it does. From there on,
`aiTrace_of_reply` is about the trace of a node that succeeded, and
`aiProviderError_shown` about what is recorded, decided and shown of a failure.
-/

namespace FlowPilot.AiOrchestrator

open Api

/-! ## What a node ends with -/

inductive NodeEnd where
  | output (reply : Reply)
  | providerError (message : String) (status : Option Nat) (providerError : Option Json)
  /-- An exception that the route does not name. -/
  | unnamed

def Exchange.nodeEnd (provider : CloudProvider) : Exchange → NodeEnd
  | .replied body providerLatencyMs =>
      match (Network.parser provider.providerName).parse body providerLatencyMs with
      | some reply => .output reply
      | none => .providerError (provider.label ++ " returned an invalid response") none none
  | .timedOut => .providerError (provider.label ++ " request timed out") none none
  | .failedWithStatus statusCode body =>
      .providerError (provider.label ++ " request failed with status " ++ toString statusCode)
        (some statusCode) body
  | .failed => .providerError (provider.label ++ " request failed") none none
  | .exception => .unnamed

/-- The name of the provider in the details of its errors. -/
def errorName (provider : CloudProvider) : String :=
  if provider.providerName = "anthropic" then "claude" else provider.providerName

/-- The error of the client for an error of the provider. -/
def clientError (provider : CloudProvider) (message : String) (status : Option Nat)
    (providerError : Option Json) : JsError :=
  .aiOrchestratorClientError "ai_provider_error" message (status ≠ some 429) (some 502)
    (some (.obj [("detail", .obj (providerErrorDetail (errorName provider)
      ⟨message, status, providerError⟩))]))

/-- The error of the client for any other exception. -/
def unnamedError : JsError :=
  .aiOrchestratorClientError "ai_orchestrator_invalid_json"
    "AI orchestrator response body was not valid JSON" true (some 500) none

/-- The services, the configuration and the credential of a call. -/
structure AiCall where
  services : Services
  network : Network
  client : AiOrchestratorClient
  node : WorkflowNode
  config : AiPromptConfig
  context : WorkflowNodeExecutionContext
  provider : CloudProvider
  credential : String

namespace AiCall

variable (call : AiCall)

/-- The provider is the one of the configuration, and gets this credential;
the service reaches the network. -/
structure Ready : Prop where
  provider_eq : providers.lookup call.config.provider.val = some (.cloud call.provider)
  credential_eq : ∃ id, call.config.credentialId = some id
    ∧ call.provider.getCredential call.services call.context.message.workspaceId id.val
      = .ok call.credential
  complete_eq : call.services.complete = call.network.complete

/-- What the executor returns. -/
def run : Except JsError Record :=
  call.client.executeAiPromptActionNode call.services.fetch call.node call.config call.context

def exchange : Exchange :=
  call.network.exchange call.provider.providerName call.credential (promptRunConfig call.config)
    call.context.input

/-- The output for a reply. -/
def output (reply : Reply) : Record :=
  promptRunResult call.provider.providerName (promptRunConfig call.config) call.context.input
    (call.network.compactDumps call.context.input) reply

end AiCall

section

variable {call : AiCall}

/-- The exceptions of `run` are those of the exchange. -/
theorem promptServiceRunPrompt_ready (h : call.Ready) :
    promptServiceRunPrompt call.services
        ⟨promptRunContext call.node call.context, promptRunConfig call.config, call.context.input⟩
      = match call.exchange.nodeEnd call.provider with
        | .output reply => .ok (call.output reply)
        | .providerError message status providerError =>
            .error (call.provider.providerError ⟨message, status, providerError⟩)
        | .unnamed => .error .exception := by
  obtain ⟨id, hid, hcredential⟩ := h.credential_eq
  have hprovider : providers.lookup (promptRunConfig call.config).provider
      = some (.cloud call.provider) := h.provider_eq
  have hconfigId : (promptRunConfig call.config).credentialId = some id.val :=
    congrArg (Option.map _) hid
  have hcredential : call.provider.getCredential call.services
      (promptRunContext call.node call.context).workspaceId id.val = .ok call.credential :=
    hcredential
  have hcomplete : call.services.complete call.provider.providerName call.credential
      (promptRunConfig call.config) call.context.input
      = match call.exchange with
        | .replied body providerLatencyMs =>
            match (Network.parser call.provider.providerName).parse body providerLatencyMs with
            | some reply => .result (call.output reply)
            | none => .invalidResponse
        | .timedOut => .timedOut
        | .failedWithStatus statusCode body => .failedWithStatus statusCode body
        | .failed => .failed
        | .exception => .exception := by
    rw [h.complete_eq]
    rfl
  simp only [promptServiceRunPrompt, registryGet, hprovider, pure_bind, CloudProvider.run,
    hconfigId, hcredential]
  simp only [bind, Except.bind, hcomplete]
  cases call.exchange with
  | replied body providerLatencyMs =>
      simp only [Exchange.nodeEnd]
      cases (Network.parser call.provider.providerName).parse body providerLatencyMs <;> rfl
  | timedOut => rfl
  | failedWithStatus statusCode body => rfl
  | failed => rfl
  | exception => rfl

theorem exceptionResponse_providerError {provider : CloudProvider} {name : String}
    (h : providers.lookup name = some (.cloud provider)) (error : ProviderError) :
    exceptionResponse (provider.providerError error)
      = httpException 502 (providerErrorDetail (errorName provider) error) := by
  rcases cloud_of_lookup h with rfl | rfl | rfl <;> rfl

/-- The client takes over message and details of a provider's error, and
retries it unless the provider's status is that of a rate limit. -/
theorem readResult_providerError (provider : CloudProvider) (message : String)
    (status : Option Nat) (providerError : Option Json) :
    AiOrchestratorClient.readResult (httpException 502
        (providerErrorDetail (errorName provider) ⟨message, status, providerError⟩))
      = .error (clientError provider message status providerError) := by
  have hparse : parseProviderError (.obj [("detail", .obj (providerErrorDetail (errorName provider)
      ⟨message, status, providerError⟩))])
      = ⟨some "ai_provider_error", some message, status.map Nat.cast⟩ := by
    cases status <;> rfl
  have hretryable : isRetryableAiOrchestratorFailure 502 ⟨some "ai_provider_error", some message,
      status.map Nat.cast⟩ = decide (status ≠ some 429) := by
    cases status with
    | none => rfl
    | some n =>
        have hlimit : (n : Rat) = 429 ↔ n = 429 := by norm_cast
        have hstatus : isRetryableStatus 502 = true := rfl
        simp [isRetryableAiOrchestratorFailure, hlimit, hstatus]
  rw [clientError, ← hretryable, ← hparse]
  rfl

/-- The node ends as its exchange does. -/
theorem executeAiPromptActionNode_nodeEnd (h : call.Ready) :
    call.run = match call.exchange.nodeEnd call.provider with
      | .output reply => .ok (call.output reply)
      | .providerError message status providerError =>
          .error (clientError call.provider message status providerError)
      | .unnamed => .error unnamedError := by
  rw [AiCall.run, executeAiPromptActionNode_eq_readResult, promptServiceRunPrompt_ready h]
  cases call.exchange.nodeEnd call.provider with
  | output reply => rfl
  | providerError message status providerError =>
      simp only [exceptionResponse_providerError h.provider_eq]
      exact readResult_providerError _ _ _ _
  | unnamed => rfl

end

/-! ## A node of OpenAI -/

/-- A node that asks OpenAI, which answers to its key like this. -/
def openAiCall (outcome : CreateOutcome) : AiCall :=
  let network : Network :=
    { sortedDumps := fun _ => "\x7b\x7d"
      compactDumps := fun _ => "\x7b\x7d"
      post := fun _ _ => .exception
      createOpenAi := fun credential _ =>
        if credential = "sk-test" then outcome else .apiStatusError 401 none
      createAnthropic := fun _ _ => .exception }
  let config := promptConfig ⟨"openai", by decide⟩ (some ⟨"credential", by decide⟩)
  { services :=
      { flowpilotApiUrl := "http://api:3000/api"
        flowpilotInternalApiToken := "token"
        httpxGet := fun _ _ => .response ⟨200, some ((openAiCredential
          ⟨"sk-test", by decide⟩).secret "workspace" "credential").toJson⟩
        complete := network.complete
        jsonDumps := fun _ => "\x7b\x7d"
        validationErrors := fun _ => [] }
    network
    client := ⟨"", 5000⟩
    node := promptNode config
    config
    context := promptContext
    provider := openAiProvider
    credential := "sk-test" }

theorem openAiCall_ready (outcome : CreateOutcome) : (openAiCall outcome).Ready where
  provider_eq := rfl
  credential_eq := by
    refine ⟨⟨"credential", by decide⟩, rfl, ?_⟩
    have hsecret : getSecret (openAiCall outcome).services
        (openAiCall outcome).context.message.workspaceId "credential" = .ok (secretOf _ _ _) :=
      getSecret_of_credential rfl (by decide)
        (modelValidate_secret (openAiCredential ⟨"sk-test", by decide⟩) "workspace" "credential")
    exact getCredential_of_matches (Or.inr (Or.inl rfl)) hsecret
      (matches_secretOf.mpr ⟨by decide, rfl, by decide⟩)
  complete_eq := rfl

/-! ## The trace of a reply -/

section

variable {call : AiCall}

/-- A count of the service as the worker reads it. -/
def readCount (n : Nat) : Option Nat := (JsNumber.nearestDouble n).natural?

/-- It is the same count, as long as it has 53 bits. -/
theorem readCount_of_lt {n : Nat} (h : n < 2 ^ 53) : readCount n = some n :=
  JsNumber.natural?_nearestDouble h

theorem getNonNegativeIntegerOrNull_cast (n : Nat) :
    getNonNegativeIntegerOrNull (some (.num n)) = readCount n := rfl

theorem getAiTokenUsage_output (reply : Reply) :
    getAiTokenUsage (call.output reply)
      = ⟨(readCount (replyInputTokens (promptRunConfig call.config)
          (call.network.compactDumps call.context.input) reply)).getD 0,
        (readCount (replyOutputTokens reply)).getD 0⟩ := by
  have htokens : (call.output reply).lookup "tokens" = some (.obj
      [("input", .num (replyInputTokens (promptRunConfig call.config)
          (call.network.compactDumps call.context.input) reply)),
        ("output", .num (replyOutputTokens reply))]) := rfl
  simp [getAiTokenUsage, htokens, Json.asRecord, List.lookup_cons, getNonNegativeInteger,
    getNonNegativeIntegerOrNull_cast]

theorem getAiProviderTrace_output (reply : Reply) :
    getAiProviderTrace (call.output reply)
      = ⟨readCount reply.providerLatencyMs, reply.finishReason.filter (· ≠ "")⟩ := by
  have htrace : (call.output reply).lookup "trace" = some (.obj [("deterministic", .bool false),
      ("inputKeys", .arr ((call.context.input.map (·.1)).mergeSort.map .str)),
      ("providerLatencyMs", .num reply.providerLatencyMs),
      ("finishReason", Json.orNull (reply.finishReason.map .str))]) := rfl
  cases hreason : reply.finishReason with
  | none =>
      simp [getAiProviderTrace, htrace, hreason, Json.asRecord, List.lookup_cons, Json.orNull,
        getNonNegativeIntegerOrNull_cast]
  | some finishReason =>
      by_cases hempty : finishReason = "" <;>
        simp [getAiProviderTrace, htrace, hreason, Json.asRecord, List.lookup_cons, Json.orNull,
          getNonNegativeIntegerOrNull_cast, Option.filter_some, hempty]

theorem nodeEnd_eq_output {exchange : Exchange} {provider : CloudProvider} {reply : Reply}
    (h : exchange.nodeEnd provider = .output reply) :
    ∃ body providerLatencyMs, exchange = .replied body providerLatencyMs
      ∧ (Network.parser provider.providerName).parse body providerLatencyMs = some reply := by
  cases exchange with
  | replied body providerLatencyMs =>
      rw [Exchange.nodeEnd] at h
      split at h
      · rename_i parsed hparse
        cases h
        exact ⟨body, providerLatencyMs, rfl, hparse⟩
      · cases h
  | timedOut => cases h
  | failedWithStatus statusCode body => cases h
  | failed => cases h
  | exception => cases h

/-- **Traces of replies.** If the node succeeds, then its provider replied
with a body that has a content; the trace has the latency and the finish
reason of the reply, the token counts of the reply or else their estimates,
each as the worker reads it, and total and cost of these counts. -/
theorem aiTrace_of_reply [Runtime] (call : AiCall) (output : Record) (startedAt completedAt : Int)
    (h : call.Ready) (hrun : call.run = .ok output) :
    let trace := successfulTraceData call.context.message call.node call.config
      call.context.nodeExecutionId call.context.input output startedAt completedAt
    ∃ body providerLatencyMs reply, call.exchange = .replied body providerLatencyMs
      ∧ (Network.parser call.provider.providerName).parse body providerLatencyMs = some reply
      ∧ trace.providerLatencyMs = readCount reply.providerLatencyMs
      ∧ trace.finishReason = reply.finishReason.filter (· ≠ "")
      ∧ ∃ input output, input = (readCount (replyInputTokens (promptRunConfig call.config)
          (call.network.compactDumps call.context.input) reply)).getD 0
        ∧ output = (readCount (replyOutputTokens reply)).getD 0
        ∧ trace.inputTokenCount = some input ∧ trace.outputTokenCount = some output
        ∧ trace.totalTokenCount = some ((JsNumber.finite input).add (.finite output))
        ∧ trace.estimatedCostUsd
          = estimateAiCostUsd call.config.provider.val call.config.model.val ⟨input, output⟩ := by
  intro trace
  rw [executeAiPromptActionNode_nodeEnd h] at hrun
  split at hrun
  · rename_i reply hend
    obtain rfl := Except.ok.inj hrun
    obtain ⟨body, providerLatencyMs, hexchange, hparse⟩ := nodeEnd_eq_output hend
    have htokens := @getAiTokenUsage_output call reply
    have hprovider := @getAiProviderTrace_output call reply
    refine ⟨body, providerLatencyMs, reply, hexchange, hparse, ?_, ?_, _, _, rfl, rfl, ?_⟩
    · simp only [trace, successfulTraceData, hprovider]
    · simp only [trace, successfulTraceData, hprovider]
    · simp only [trace, successfulTraceData, htokens]
      exact ⟨trivial, trivial, trivial, trivial⟩
  · cases hrun
  · cases hrun

/-- The body of a reply that gives one of the counts. -/
def replyBody : PyValue :=
  .dict [("choices", .list [.dict [("message", .dict [("content", .str "Done.")]),
      ("finish_reason", .str "stop")]]),
    ("usage", .dict [("prompt_tokens", .int 20)])]

/-- The other count is estimated. -/
theorem aiTrace_of_reply_openAi :
    let _ : Runtime := .sample false
    let call := openAiCall (.response replyBody 7)
    let trace := successfulTraceData call.context.message call.node call.config
      call.context.nodeExecutionId call.context.input
      (call.output ⟨"Done.", some "stop", some 20, none, 7⟩) 0 9
    trace.inputTokenCount = some 20 ∧ trace.outputTokenCount = some 12
      ∧ trace.totalTokenCount = some (.finite 32) ∧ trace.finishReason = some "stop" := by
  intro _ call trace
  have hready : call.Ready := openAiCall_ready _
  have hend : call.exchange.nodeEnd call.provider
      = .output ⟨"Done.", some "stop", some 20, none, 7⟩ := rfl
  have hrun : call.run = .ok (call.output ⟨"Done.", some "stop", some 20, none, 7⟩) := by
    rw [executeAiPromptActionNode_nodeEnd hready, hend]
  obtain ⟨body, providerLatencyMs, reply, hexchange, hparse, -, hreason, _, _, rfl, rfl, hinput,
    houtput, htotal, -⟩ := aiTrace_of_reply call _ 0 9 hready hrun
  cases hexchange
  have hreply : (Network.parser call.provider.providerName).parse (some replyBody) 7
      = some ⟨"Done.", some "stop", some 20, none, 7⟩ := rfl
  obtain rfl := Option.some.inj (hreply.symm.trans hparse)
  have hread : readCount 20 = some 20 ∧ readCount 12 = some 12 :=
    ⟨readCount_of_lt (by decide), readCount_of_lt (by decide)⟩
  have hsum : (JsNumber.finite (20 : Nat)).add (.finite (12 : Nat)) = .finite 32 := by
    decide +kernel
  have hcounts : (readCount (replyInputTokens (promptRunConfig call.config)
      (call.network.compactDumps call.context.input)
      ⟨"Done.", some "stop", some 20, none, 7⟩)).getD 0 = 20
      ∧ (readCount (replyOutputTokens ⟨"Done.", some "stop", some 20, none, 7⟩)).getD 0 = 12 :=
    ⟨congrArg (Option.getD · 0) hread.1, congrArg (Option.getD · 0) hread.2⟩
  rw [hcounts.1] at hinput htotal
  rw [hcounts.2] at houtput htotal
  exact ⟨hinput, houtput, htotal.trans (congrArg some hsum), hreason⟩

/-! ## The notice of a failure -/

theorem property_orNull (value : Option Json) (key : String) :
    Web.property (some (Json.orNull value)) key = Web.property value key := by
  cases value <;> rfl

theorem providerMessage_orNull (providerError : Option Json) :
    Web.providerMessage (some (Json.orNull providerError)) = Web.providerMessage providerError := by
  simp only [Web.providerMessage, property_orNull]

/-- What the page makes of the recorded failure. -/
theorem getAiProviderErrorDetails_clientError (provider : CloudProvider) (message : String)
    (status : Option Nat) (providerError : Option Json) :
    Web.getAiProviderErrorDetails
        (normalizeWorkerFailure (clientError provider message status providerError)).toJson
      = some
        { provider := some (Web.humanized (errorName provider))
          retryable := some (decide (status ≠ some 429))
          status := status.map Nat.cast
          title :=
            if status = some 429 then "The selected AI provider is rate-limited right now."
            else "The selected AI provider rejected this request."
          message := some ((Web.providerMessage providerError).getD message) } := by
  let detail : Json := .obj (providerErrorDetail (errorName provider)
    ⟨message, status, providerError⟩)
  let failure := normalizeWorkerFailure (clientError provider message status providerError)
  have hdetail : Web.property (Web.property (Web.property (some failure.toJson) "cause")
      "responseBody") "detail" = some detail := rfl
  have hcode : Web.property (some detail) "code" = some (.str "ai_provider_error") := rfl
  have hprovider : Web.property (some detail) "provider" = some (.str (errorName provider)) := rfl
  have hstatus : Web.numberOrUndefined (Web.property (some detail) "status")
      = status.map Nat.cast := by
    cases status <;> rfl
  have hmessage : Web.property (some detail) "message" = some (.str message) := rfl
  have herror : Web.property (some detail) "providerError" = some (Json.orNull providerError) := rfl
  have hretryable : failure.toJson.get? "retryable"
      = some (.bool (decide (status ≠ some 429))) := rfl
  change Web.getAiProviderErrorDetails failure.toJson = _
  have hlimit : status.map (Nat.cast : Nat → Rat) = some 429 ↔ status = some 429 := by
    cases status with
    | none => simp
    | some n =>
        have hn : (n : Rat) = 429 ↔ n = 429 := by norm_cast
        simpa using hn
  have hwords (words rest : Option String) :
      (words.or (some message)).or rest = some (words.getD message) := by
    cases words <;> rfl
  simp only [Web.getAiProviderErrorDetails, hdetail, hcode, hprovider, hstatus, hmessage, herror,
    hretryable, if_true, providerMessage_orNull, Web.stringOrUndefined_str,
    Web.booleanOrUndefined_bool, Option.map_some, hlimit, hwords]

/-- **Failures of providers.** A call that its provider fails fails the node
with an error that trace and page tell alike: the page shows who failed, with
which status, and the provider's own words where it sent any, else the message
of the trace. It says that there is no retry exactly if the handler never
publishes one, which is after a rate limit; where it says that there is one,
the handler publishes it as long as attempts are left. -/
theorem aiProviderError_shown [Runtime] (call : AiCall) (message : String) (status : Option Nat)
    (providerError : Option Json) (startedAt failedAt : Int) (h : call.Ready)
    (hend : call.exchange.nodeEnd call.provider = .providerError message status providerError) :
    ∃ error details, call.run = .error error
      ∧ Web.getAiProviderErrorDetails (normalizeWorkerFailure error).toJson = some details
      ∧ details.provider = some (Web.humanized (errorName call.provider))
      ∧ details.message = some ((Web.providerMessage providerError).getD message)
      ∧ details.status = status.map Nat.cast
      ∧ (let trace := failedTraceData call.context.message call.node call.config
          call.context.nodeExecutionId call.context.input (normalizeWorkerFailure error)
          startedAt failedAt
        trace.errorMessage = some message ∧ trace.providerStatusCode = details.status
          ∧ trace.retryable = details.retryable)
      ∧ details.retryable = some (decide (status ≠ some 429))
      ∧ (details.retryable = some false ↔ NeverRetried error)
      ∧ (details.retryable = some true → ∀ consumed m,
        getWorkflowExecutionRetryAttempt consumed < maxRetryAttempts →
          ∃ events out, Prog.Trace (handleFailure consumed m error) events out
            ∧ RetriesCommand events) := by
  have hrun : call.run = .error (clientError call.provider message status providerError) := by
    rw [executeAiPromptActionNode_nodeEnd h, hend]
  have hdetails := getAiProviderErrorDetails_clientError call.provider message status providerError
  have hstatus : getProviderStatusCode (normalizeWorkerFailure (clientError call.provider message
      status providerError)) = status.map Nat.cast := by
    cases status <;> rfl
  have hflag : (normalizeWorkerFailure (clientError call.provider message status
      providerError)).retryable = decide (status ≠ some 429) := rfl
  refine ⟨_, _, hrun, hdetails, rfl, rfl, rfl, ⟨rfl, hstatus, rfl⟩, rfl, ?_, ?_⟩
  · rw [neverRetried_iff, hflag, Option.some.injEq]
  · intro hretryable consumed m hattempt
    exact exists_retry (hflag.trans (Option.some.inj hretryable)) hattempt m

/-- A rate limit, in the words of the provider, and an outage. -/
theorem aiProviderError_shown_rateLimit :
    let _ : Runtime := .sample false
    let body := Json.obj [("error", .obj [("message", .str "Slow down.")])]
    let limited := openAiCall (.apiStatusError 429 (some body))
    let unavailable := openAiCall (.apiStatusError 503 none)
    (∃ error details, limited.run = .error error
      ∧ Web.getAiProviderErrorDetails (normalizeWorkerFailure error).toJson = some details
      ∧ details.provider = some "Openai" ∧ details.message = some "Slow down."
      ∧ details.retryable = some false ∧ NeverRetried error)
    ∧ ∃ error details events out, unavailable.run = .error error
      ∧ Web.getAiProviderErrorDetails (normalizeWorkerFailure error).toJson = some details
      ∧ details.retryable = some true
      ∧ Prog.Trace (handleFailure (newMessage .null) (newCommand .null) error) events out
      ∧ RetriesCommand events := by
  intro _ body limited unavailable
  constructor
  · obtain ⟨error, details, hrun, hdetails, hprovider, hmessage, -, -, hretryable, hnever, -⟩ :=
      aiProviderError_shown limited "OpenAI request failed with status 429" (some 429) (some body)
        0 9 (openAiCall_ready _) rfl
    have hname : Web.humanized (errorName openAiProvider) = "Openai" := by decide
    exact ⟨error, details, hrun, hdetails, hprovider.trans (congrArg some hname), hmessage,
      hretryable, hnever.mp hretryable⟩
  · obtain ⟨error, details, hrun, hdetails, -, -, -, -, hretryable, -, hretries⟩ :=
      aiProviderError_shown unavailable "OpenAI request failed with status 503" (some 503) none
        0 9 (openAiCall_ready _) rfl
    obtain ⟨events, out, htrace, hcopy⟩ :=
      hretries hretryable (newMessage .null) (newCommand .null) (by decide)
    exact ⟨error, details, events, out, hrun, hdetails, hretryable, htrace, hcopy⟩

end

end FlowPilot.AiOrchestrator
