import FlowPilot.AiOrchestrator.PromptService
import FlowPilot.System.NodeFailure

/-!
# Configuration failures

An AI node can be configured so that no retry helps: its provider does not
exist, or its credential is missing, unknown, denied, or of the wrong sort.
The route answers the first two with a 422, which the client takes for final.
The errors of the credential lookup are named by no `except` clause; they
become a 500 without JSON, and the worker retries them
(`executeAiPromptActionNode_final_iff`).
-/

namespace FlowPilot.AiOrchestrator

/-! ## Requests of AI nodes -/

theorem length_le_utf16Length (s : String) : s.length ≤ utf16Length s := by
  rw [← String.length_toList, utf16Length]
  induction s.toList with
  | nil => simp
  | cons c cs ih =>
      rw [List.length_cons, List.map_cons, List.sum_cons]
      split <;> omega

theorem length_pos_of_utf16Length {s : String} (h : 1 ≤ utf16Length s) : 1 ≤ s.length := by
  rw [← String.length_toList]
  rw [utf16Length] at h
  cases hs : s.toList with
  | nil =>
      rw [hs] at h
      simp at h
  | cons c cs => simp

/-- What the contract bounds, the service accepts. -/
theorem hasLength_bounded {hi : Nat} (s : BoundedString 1 hi) : hasLength 1 hi s.val = true := by
  have hlo := length_pos_of_utf16Length s.property.1
  have hhi := (length_le_utf16Length s.val).trans s.property.2
  simp [hasLength, hlo, hhi]

theorem all_hasLength_bounded {hi : Nat} (s : Option (BoundedString 1 hi)) :
    (s.map (·.val)).all (hasLength 1 hi) = true := by
  cases s with
  | none => rfl
  | some s => exact hasLength_bounded s

/-- A field that is only sent when there is a value. -/
theorem lookup_optionalField (key k : String) (s : Option String) :
    (s.map fun v => (key, Json.str v)).toList.lookup k = if k = key then s.map .str else none := by
  cases s with
  | none => simp
  | some v => by_cases hk : k = key <;> simp [List.lookup_cons, hk, beq_eq_false_iff_ne.mpr]

theorem optionalStr?_map (s : Option String) : optionalStr? (s.map .str) = some s := by
  cases s with
  | none => rfl
  | some v => rfl

theorem lookup_payloadConfig (request : AiPromptRunInput) :
    (payloadConfig request).lookup "prompt" = some (.str request.prompt)
      ∧ (payloadConfig request).lookup "systemPrompt" = request.systemPrompt.map .str
      ∧ (payloadConfig request).lookup "provider" = some (.str request.provider)
      ∧ (payloadConfig request).lookup "credentialId" = request.credentialId.map .str
      ∧ (payloadConfig request).lookup "model" = some (.str request.model)
      ∧ (payloadConfig request).lookup "temperature" = some (.num request.temperature) := by
  simp only [payloadConfig, List.lookup_append, lookup_optionalField]
  simp [List.lookup_cons]

theorem forbidExtra_payloadConfig (request : AiPromptRunInput) :
    forbidExtra ["prompt", "systemPrompt", "provider", "credentialId", "model", "temperature"]
      (some (.obj (payloadConfig request))) = some (payloadConfig request) := by
  refine if_pos (List.all_eq_true.mpr fun field hfield => ?_)
  simp only [payloadConfig, List.mem_append, Option.mem_toList, Option.map_eq_some_iff,
    List.mem_cons, List.not_mem_nil, or_false] at hfield
  rcases hfield with (((rfl | ⟨s, -, rfl⟩) | rfl) | ⟨s, -, rfl⟩) | rfl | rfl <;> simp

section

variable (node : WorkflowNode) (config : AiPromptConfig) (context : WorkflowNodeExecutionContext)

/-- The configuration of a node, as the service reads it. -/
def promptRunConfig : PromptRunConfig where
  prompt := config.prompt.val
  systemPrompt := config.systemPrompt.map (·.val)
  provider := config.provider.val
  credentialId := config.credentialId.map (·.val)
  model := config.model.val
  temperature := config.temperature.val

/-- Its context. -/
def promptRunContext : PromptRunContext where
  workspaceId := context.message.workspaceId
  workflowId := context.message.workflowId
  executionId := context.message.executionId
  nodeExecutionId := some context.nodeExecutionId
  nodeId := node.id
  correlationId := context.message.correlationId

theorem modelValidate_payloadContext :
    PromptRunContext.modelValidate (some (.obj (payloadContext
        (FlowPilot.executeAiPromptActionNode node config context))))
      = some (promptRunContext node context) := by
  simp [PromptRunContext.modelValidate, forbidExtra, str?, optionalStr?, payloadContext,
    List.lookup_cons, promptRunContext, FlowPilot.executeAiPromptActionNode]

theorem modelValidate_payloadConfig :
    PromptRunConfig.modelValidate (some (.obj (payloadConfig
        (FlowPilot.executeAiPromptActionNode node config context))))
      = some (promptRunConfig config) := by
  have hprompt := hasLength_bounded config.prompt
  have hprovider := hasLength_bounded config.provider
  have hmodel := hasLength_bounded config.model
  have hsystem := all_hasLength_bounded config.systemPrompt
  have hcredential := all_hasLength_bounded config.credentialId
  have htemperature := config.temperature.property
  have hfields := lookup_payloadConfig (FlowPilot.executeAiPromptActionNode node config context)
  simp only [PromptRunConfig.modelValidate, forbidExtra_payloadConfig, Option.bind_eq_bind,
    Option.bind_some, hfields, optionalStr?_map, str?, Option.getD_some]
  simp [promptRunConfig, FlowPilot.executeAiPromptActionNode, hprompt, hprovider, hmodel,
    htemperature, hsystem, hcredential]

theorem modelValidate_payload :
    PromptRunRequest.modelValidate (createPromptRunPayload
        (FlowPilot.executeAiPromptActionNode node config context))
      = some ⟨promptRunContext node context, promptRunConfig config, context.input⟩ := by
  have hcontext := modelValidate_payloadContext node config context
  have hconfig := modelValidate_payloadConfig node config context
  simp [PromptRunRequest.modelValidate, createPromptRunPayload, forbidExtra, List.lookup_cons,
    hcontext, hconfig]
  rfl

end

/-! ## Failures -/

/-- What can be wrong with the configuration of an AI node. -/
inductive ConfigurationFailure where
  | unknownProvider
  | credentialIdMissing
  | credentialNotFound
  | credentialAccessDenied
  | credentialMismatch

/-- The types of credentials that go with a provider. -/
def credentialTypes (provider : CloudProvider) : List String :=
  if provider.providerName = "anthropic" then ["claude", "anthropic"] else [provider.providerName]

/-- Type, kind and capabilities of the credential match the provider. -/
def Matches (provider : CloudProvider) (credential : CredentialSecret) : Prop :=
  credential.type ∈ credentialTypes provider ∧ credential.kind = "llm"
    ∧ "llm.chat" ∈ credential.capabilities

/-- The lookup of the credential is answered. -/
def LookupAnswers (services : Services) (workspaceId credentialId : String)
    (response : Response) : Prop :=
  services.httpxGet (secretUrl services workspaceId credentialId)
    ("Bearer " ++ services.flowpilotInternalApiToken) = .response response

/-- The run fails because of its configuration. -/
inductive FailsBy (services : Services) (workspaceId providerName : String)
    (credentialId : Option String) : ConfigurationFailure → Prop
  | unknownProvider :
      providers.lookup providerName = none →
      FailsBy services workspaceId providerName credentialId .unknownProvider
  | credentialIdMissing {provider : CloudProvider} :
      providers.lookup providerName = some (.cloud provider) → credentialId = none →
      FailsBy services workspaceId providerName credentialId .credentialIdMissing
  | credentialNotFound {provider : CloudProvider} {id : String} {response : Response} :
      providers.lookup providerName = some (.cloud provider) → credentialId = some id →
      LookupAnswers services workspaceId id response → response.status = 404 →
      FailsBy services workspaceId providerName credentialId .credentialNotFound
  | credentialAccessDenied {provider : CloudProvider} {id : String} {response : Response} :
      providers.lookup providerName = some (.cloud provider) → credentialId = some id →
      LookupAnswers services workspaceId id response → response.status = 403 →
      FailsBy services workspaceId providerName credentialId .credentialAccessDenied
  | credentialMismatch {provider : CloudProvider} {id : String} {response : Response}
      {credential : CredentialSecret} :
      providers.lookup providerName = some (.cloud provider) → credentialId = some id →
      LookupAnswers services workspaceId id response → response.status < 400 →
      response.json.bind CredentialSecret.modelValidate = some credential →
      ¬ Matches provider credential →
      FailsBy services workspaceId providerName credentialId .credentialMismatch

section

variable {services : Services} {workspaceId id : String} {response : Response}

theorem getSecret_of_notFound (hanswer : LookupAnswers services workspaceId id response)
    (hstatus : response.status = 404) :
    getSecret services workspaceId id
      = .error (.credentialNotFoundError "Credential not found") := by
  rw [LookupAnswers] at hanswer
  simp only [getSecret, hanswer, hstatus]
  rfl

theorem getSecret_of_denied (hanswer : LookupAnswers services workspaceId id response)
    (hstatus : response.status = 403) :
    getSecret services workspaceId id
      = .error (.credentialAccessDeniedError "Internal credential access denied") := by
  rw [LookupAnswers] at hanswer
  simp only [getSecret, hanswer, hstatus]
  rfl

theorem getSecret_of_credential {credential : CredentialSecret}
    (hanswer : LookupAnswers services workspaceId id response) (hstatus : response.status < 400)
    (hcredential : response.json.bind CredentialSecret.modelValidate = some credential) :
    getSecret services workspaceId id = .ok credential := by
  have hdenied : response.status ≠ 403 := by omega
  have hmissing : response.status ≠ 404 := by omega
  rw [LookupAnswers] at hanswer
  simp only [getSecret, hanswer, hdenied, hmissing, not_le.mpr hstatus, if_false, hcredential]
  rfl

/-- The three providers of the registry that need a credential. -/
theorem cloud_of_lookup {name : String} {provider : CloudProvider}
    (h : providers.lookup name = some (.cloud provider)) :
    provider = openRouterProvider ∨ provider = openAiProvider ∨ provider = anthropicProvider := by
  simp only [providers, List.lookup_cons] at h
  split at h
  · cases h
  · split at h
    · cases h
      exact Or.inl rfl
    · split at h
      · cases h
        exact Or.inr (Or.inl rfl)
      · split at h
        · cases h
          exact Or.inr (Or.inr rfl)
        · split at h
          · cases h
            exact Or.inr (Or.inr rfl)
          · cases h

/-- What the lookup throws, the provider lets pass. -/
theorem getCredential_of_error {provider : CloudProvider} {e : PythonException}
    (hprovider : provider = openRouterProvider ∨ provider = openAiProvider
      ∨ provider = anthropicProvider)
    (h : getSecret services workspaceId id = .error e) :
    provider.getCredential services workspaceId id = .error e := by
  rcases hprovider with rfl | rfl | rfl
  · simp only [openRouterProvider, getCredentialOfType, h]
    rfl
  · simp only [openAiProvider, getCredentialOfType, h]
    rfl
  · simp only [anthropicProvider, h]
    rfl

/-- The checks of a credential throw an error of the credential client, if
anything. -/
theorem ensureCredentialSupports_of_mismatch {credential : CredentialSecret} {type : String}
    (h : ¬ (credential.type = type ∧ credential.kind = "llm"
      ∧ "llm.chat" ∈ credential.capabilities)) :
    ∃ message, ensureCredentialSupports credential type "llm" "llm.chat"
      = .error (.credentialClientError message) := by
  unfold ensureCredentialSupports
  split
  · exact ⟨_, rfl⟩
  · rename_i htype
    split
    · exact ⟨_, rfl⟩
    · rename_i hkind
      split
      · exact ⟨_, rfl⟩
      · rename_i hcapability
        exact absurd ⟨not_not.mp htype, not_not.mp hkind, not_not.mp hcapability⟩ h

theorem getCredentialOfType_of_mismatch {credential : CredentialSecret} {type : String}
    (hsecret : getSecret services workspaceId id = .ok credential)
    (h : ¬ (credential.type = type ∧ credential.kind = "llm"
      ∧ "llm.chat" ∈ credential.capabilities)) :
    ∃ message, getCredentialOfType services type workspaceId id
      = .error (.credentialClientError message) := by
  obtain ⟨message, hchecks⟩ := ensureCredentialSupports_of_mismatch h
  refine ⟨message, ?_⟩
  rw [getCredentialOfType, hsecret]
  change (ensureCredentialSupports credential type "llm" "llm.chat"
    >>= fun _ => pure credential.value) = _
  rw [hchecks]
  rfl

theorem getCredential_of_mismatch {provider : CloudProvider} {credential : CredentialSecret}
    (hprovider : provider = openRouterProvider ∨ provider = openAiProvider
      ∨ provider = anthropicProvider)
    (hsecret : getSecret services workspaceId id = .ok credential)
    (h : ¬ Matches provider credential) :
    ∃ message, provider.getCredential services workspaceId id
      = .error (.credentialClientError message) := by
  rcases hprovider with rfl | rfl | rfl
  · exact getCredentialOfType_of_mismatch hsecret fun hmatch =>
      h ⟨List.mem_singleton.mpr hmatch.1, hmatch.2⟩
  · exact getCredentialOfType_of_mismatch hsecret fun hmatch =>
      h ⟨List.mem_singleton.mpr hmatch.1, hmatch.2⟩
  · simp only [anthropicProvider, hsecret, bind, Except.bind]
    split
    · exact ⟨_, rfl⟩
    · rename_i htype
      obtain ⟨message, hchecks⟩ := @ensureCredentialSupports_of_mismatch credential
        credential.type fun hmatch => h ⟨not_not.mp htype, hmatch.2⟩
      exact ⟨message, by rw [hchecks]⟩

variable {request : PromptRunRequest}

/-- The lookup of a credential that fails, or finds the wrong one, throws
what no `except` clause names. -/
theorem promptServiceRunPrompt_of_lookup {provider : CloudProvider} {e : PythonException}
    (hprovider : providers.lookup request.config.provider = some (.cloud provider))
    (hid : request.config.credentialId = some id)
    (h : provider.getCredential services request.context.workspaceId id = .error e) :
    promptServiceRunPrompt services request = .error e := by
  simp only [promptServiceRunPrompt, registryGet, hprovider, pure_bind, CloudProvider.run, hid, h]
  rfl

/-- The response to a run that fails because of its configuration: a 422 for
a provider that does not exist or a credential id that is missing, and for
the others the framework's own. -/
theorem exceptionResponse_of_failsBy {failure : ConfigurationFailure}
    (h : FailsBy services request.context.workspaceId request.config.provider
      request.config.credentialId failure) :
    ∃ e, promptServiceRunPrompt services request = .error e
      ∧ ((providers.lookup request.config.provider = none ∨ request.config.credentialId = none)
          ∧ (∃ detail, exceptionResponse e = httpException 422 detail)
        ∨ ¬ (providers.lookup request.config.provider = none ∨ request.config.credentialId = none)
          ∧ exceptionResponse e = ⟨500, none⟩) := by
  cases h with
  | unknownProvider hprovider =>
      refine ⟨.unknownProviderError request.config.provider, ?_, Or.inl ⟨Or.inl hprovider, _, rfl⟩⟩
      simp only [promptServiceRunPrompt, registryGet, hprovider]
      rfl
  | @credentialIdMissing provider hprovider hid =>
      refine ⟨.providerConfigurationError (provider.label ++ " provider requires credentialId")
        provider.providerName, ?_, Or.inl ⟨Or.inr hid, _, rfl⟩⟩
      simp only [promptServiceRunPrompt, registryGet, hprovider, pure_bind, CloudProvider.run, hid]
      rfl
  | credentialNotFound hprovider hid hanswer hstatus =>
      have hcredential := getCredential_of_error (cloud_of_lookup hprovider)
        (getSecret_of_notFound hanswer hstatus)
      exact ⟨_, promptServiceRunPrompt_of_lookup hprovider hid hcredential,
        Or.inr ⟨by simp [hprovider, hid], rfl⟩⟩
  | credentialAccessDenied hprovider hid hanswer hstatus =>
      have hcredential := getCredential_of_error (cloud_of_lookup hprovider)
        (getSecret_of_denied hanswer hstatus)
      exact ⟨_, promptServiceRunPrompt_of_lookup hprovider hid hcredential,
        Or.inr ⟨by simp [hprovider, hid], rfl⟩⟩
  | credentialMismatch hprovider hid hanswer hstatus hcredential hmismatch =>
      obtain ⟨message, hcredential⟩ := getCredential_of_mismatch (cloud_of_lookup hprovider)
        (getSecret_of_credential hanswer hstatus hcredential) hmismatch
      exact ⟨_, promptServiceRunPrompt_of_lookup hprovider hid hcredential,
        Or.inr ⟨by simp [hprovider, hid], rfl⟩⟩

end

/-! ## The worker -/

/-- `fetch` against the service, when the exchange itself succeeds. -/
def Services.fetch (services : Services) (request : FetchRequest) : FetchOutcome :=
  .response (runPrompt services request.body)

/-- A failed response with a 422 is final. -/
theorem readResult_unprocessable (detail : Record) :
    ∃ error, AiOrchestratorClient.readResult (httpException 422 detail) = .error error
      ∧ (normalizeWorkerFailure error).retryable = false := by
  obtain ⟨code, message, heq⟩ :=
    @AiOrchestratorClient.readResult_of_failed (httpException 422 detail) _ rfl rfl
  refine ⟨_, heq, Bool.eq_false_iff.mpr fun hretryable => ?_⟩
  have hstatus := (isRetryableAiOrchestratorFailure_iff.mp hretryable).1
  revert hstatus
  simp [httpException, isRetryableStatus]

section

variable [Runtime]

/-- Whatever command an error ends, the worker's handler publishes no retry
copy for it. -/
def NeverRetried (error : JsError) : Prop :=
  ∀ (message : ConsumeMessage) (m : WorkflowExecutionRequestedMessage) (events : WorkerHistory)
    (out : Except JsError Unit),
    Prog.Trace (handleFailure message m error) events out → ¬ RetriesCommand events

/-- As long as attempts are left, the handler publishes a copy for an error
that is retryable. -/
theorem exists_retry {error : JsError} (h : (normalizeWorkerFailure error).retryable = true)
    {message : ConsumeMessage} (hattempt : getWorkflowExecutionRetryAttempt message
      < maxRetryAttempts) (m : WorkflowExecutionRequestedMessage) :
    ∃ events out, Prog.Trace (handleFailure message m error) events out
      ∧ RetriesCommand events := by
  obtain ⟨events, out, htrace, -⟩ :=
    Prog.exists_trace (fun _ => .failed error) (handleFailure message m error)
  exact ⟨events, out, htrace, (handleFailure_retries_iff htrace).mpr ⟨h, hattempt⟩⟩

/-- The flag decides. -/
theorem neverRetried_iff {error : JsError} :
    NeverRetried error ↔ (normalizeWorkerFailure error).retryable = false := by
  constructor
  · intro hnever
    by_contra hretryable
    have hfirst : getWorkflowExecutionRetryAttempt (newMessage .null) < maxRetryAttempts :=
      Nat.zero_lt_succ _
    obtain ⟨events, out, htrace, hretries⟩ :=
      exists_retry (Bool.eq_true_of_not_eq_false hretryable) hfirst (newCommand .null)
    exact hnever _ _ events out htrace hretries
  · intro h message m events out htrace hretries
    cases h.symm.trans ((handleFailure_retries_iff htrace).mp hretries).1

/-- The failure is final: it is not retryable, and it is not retried. -/
def FinalFailure (outcome : Except JsError Record) : Prop :=
  ∃ error, outcome = .error error ∧ (normalizeWorkerFailure error).retryable = false
    ∧ NeverRetried error

theorem finalFailure_of_unretryable {error : JsError}
    (h : (normalizeWorkerFailure error).retryable = false) :
    FinalFailure (.error error) :=
  ⟨error, rfl, h, neverRetried_iff.mpr h⟩

theorem not_finalFailure_of_retryable {error : JsError}
    (h : (normalizeWorkerFailure error).retryable = true) : ¬ FinalFailure (.error error) := by
  rintro ⟨_, herror, hretryable, -⟩
  cases herror
  cases h.symm.trans hretryable

variable {services : Services} {client : AiOrchestratorClient} {node : WorkflowNode}
  {config : AiPromptConfig} {context : WorkflowNodeExecutionContext}
  {failure : ConfigurationFailure}

/-- What the executor makes of the response. -/
theorem executeAiPromptActionNode_of_failsBy
    (h : FailsBy services context.message.workspaceId config.provider.val
      (config.credentialId.map (·.val)) failure) :
    (providers.lookup config.provider.val = none ∨ config.credentialId = none)
        ∧ FinalFailure (client.executeAiPromptActionNode services.fetch node config context)
    ∨ ¬ (providers.lookup config.provider.val = none ∨ config.credentialId = none)
        ∧ ¬ FinalFailure (client.executeAiPromptActionNode services.fetch node config context) := by
  obtain ⟨e, hrun, hresponse⟩ := @exceptionResponse_of_failsBy services
    ⟨promptRunContext node context, promptRunConfig config, context.input⟩ failure h
  have hpost : runPrompt services (createPromptRunPayload
      (FlowPilot.executeAiPromptActionNode node config context)) = exceptionResponse e := by
    simp only [runPrompt, modelValidate_payload, hrun]
  have hexecute : client.executeAiPromptActionNode services.fetch node config context
      = AiOrchestratorClient.readResult (exceptionResponse e) :=
    AiOrchestratorClient.runPrompt_response (congrArg FetchOutcome.response hpost)
  have hid : (promptRunConfig config).credentialId = none ↔ config.credentialId = none :=
    Option.map_eq_none_iff
  rw [hexecute, ← hid]
  rcases hresponse with ⟨hfinal, detail, hdetail⟩ | ⟨hlookup, hframework⟩
  · obtain ⟨error, herror, hretryable⟩ := readResult_unprocessable detail
    rw [hdetail, herror]
    exact Or.inl ⟨hfinal, finalFailure_of_unretryable hretryable⟩
  · rw [hframework, AiOrchestratorClient.readResult_of_notJson rfl]
    exact Or.inr ⟨hlookup, not_finalFailure_of_retryable rfl⟩

/-- An AI node that can not run as it is configured fails for good exactly
where its provider does not exist or its credential id is missing. Where the
credential is unknown, denied or of the wrong sort, it is retried. -/
theorem executeAiPromptActionNode_final_iff (services : Services) (client : AiOrchestratorClient)
    (node : WorkflowNode) (config : AiPromptConfig) (context : WorkflowNodeExecutionContext)
    (failure : ConfigurationFailure)
    (h : FailsBy services context.message.workspaceId config.provider.val
      (config.credentialId.map (·.val)) failure) :
    FinalFailure (client.executeAiPromptActionNode services.fetch node config context)
      ↔ providers.lookup config.provider.val = none ∨ config.credentialId = none := by
  rcases executeAiPromptActionNode_of_failsBy h with ⟨hcondition, hfinal⟩ | ⟨hcondition, hfinal⟩
  · exact iff_of_true hfinal hcondition
  · exact iff_of_false hfinal hcondition

end

/-! ## Two nodes -/

/-- An AI node of a provider. -/
def promptConfig (provider : BoundedString 1 80) (credentialId : Option (BoundedString 1 120)) :
    AiPromptConfig where
  prompt := ⟨"Summarize.", by decide⟩
  systemPrompt := none
  provider
  credentialId
  model := ⟨"model", by decide⟩
  temperature := ⟨0, by decide +kernel⟩

def promptNode (config : AiPromptConfig) : WorkflowNode where
  nodeId := ⟨"ai", by decide, by decide⟩
  name := ⟨"AI", by decide⟩
  position := none
  config := .aiPromptAction config

def promptContext : WorkflowNodeExecutionContext :=
  ⟨[], newCommand .null, "node-execution"⟩

/-- Services that know no credential. -/
def servicesWithoutCredentials : Services where
  flowpilotApiUrl := "http://api:3000/api"
  flowpilotInternalApiToken := "token"
  httpxGet _ _ := .response ⟨404, none⟩
  complete _ _ _ _ := .failed
  jsonDumps _ := "\x7b\x7d"
  validationErrors _ := []

/-- The theorem at a provider that does not exist. -/
theorem executeAiPromptActionNode_final_unknownProvider :
    let config := promptConfig ⟨"unknown", by decide⟩ none
    ∃ (_ : Runtime), FinalFailure (AiOrchestratorClient.executeAiPromptActionNode ⟨"", 5000⟩
      servicesWithoutCredentials.fetch (promptNode config) config promptContext) := by
  intro config
  let _ : Runtime := .sample false
  have hunknown : providers.lookup config.provider.val = none := by decide
  exact ⟨_, (executeAiPromptActionNode_final_iff servicesWithoutCredentials _ _ config
    promptContext _ (.unknownProvider hunknown)).mpr (Or.inl hunknown)⟩

/-- A credential that does not exist is looked up again and again. -/
theorem executeAiPromptActionNode_retries_notFound :
    let config := promptConfig ⟨"openrouter", by decide⟩ (some ⟨"credential", by decide⟩)
    ∃ (_ : Runtime), FailsBy servicesWithoutCredentials promptContext.message.workspaceId
        config.provider.val (config.credentialId.map (·.val)) .credentialNotFound
      ∧ ¬ FinalFailure (AiOrchestratorClient.executeAiPromptActionNode ⟨"", 5000⟩
        servicesWithoutCredentials.fetch (promptNode config) config promptContext) := by
  intro config
  let _ : Runtime := .sample false
  have hfails : FailsBy servicesWithoutCredentials promptContext.message.workspaceId
      config.provider.val (config.credentialId.map (·.val)) .credentialNotFound :=
    .credentialNotFound rfl rfl rfl rfl
  refine ⟨.sample false, hfails, ?_⟩
  rcases executeAiPromptActionNode_of_failsBy hfails with ⟨hcondition, -⟩ | ⟨-, hretried⟩
  · rcases hcondition with hprovider | hid
    · cases hprovider
    · cases hid
  · exact hretried

end FlowPilot.AiOrchestrator
