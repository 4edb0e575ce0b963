import FlowPilot.AiOrchestrator.ConfigurationFailures
import FlowPilot.Api.Credentials

/-!
# Credentials of AI nodes

An AI node names a credential; the orchestrator fetches its secret from the
internal route of the API, behind `InternalApiGuard`, and checks that it goes
with the provider. Put together with what the table of credentials went
through before: a node behind the network succeeds exactly if the id was
created in the workspace of the execution, is still there and fits the
provider, and it is the value of that creation that the provider gets
(`executeAiPromptActionNode_ok_iff`).

Both ids become segments of a path. The result is about ids that name
themselves there: an id with a slash, a dot segment or an escape can name
another route.
-/

namespace FlowPilot.Api

/-! ## The internal route -/

/-- `InternalApiGuard.canActivate`: the token after the scheme. -/
def InternalApiGuard.canActivate (internalApiToken : String) (authorization : Option String) :
    Bool :=
  match authorization with
  | some header =>
      "Bearer ".toList <+: header.toList
        ∧ String.ofList (header.toList.drop "Bearer ".length) = internalApiToken
  | none => false

/-- The body of an exception's response. -/
def exceptionBody (statusCode : Nat) (message error : String) : Json :=
  .obj [("message", .str message), ("error", .str error), ("statusCode", .num statusCode)]

def CredentialSecretResponse.toJson (response : CredentialSecretResponse) : Json :=
  .obj [("id", .str response.id), ("workspaceId", .str response.workspaceId),
    ("type", .str response.type), ("kind", .str response.kind),
    ("capabilities", .arr (response.capabilities.map .str)), ("value", .str response.value)]

/-- `GET internal/workspaces/:workspaceId/credentials/:credentialId/secret`. -/
def InternalCredentialsController.findSecret [Aes256Gcm] (key internalApiToken : String)
    (rows : CredentialTable) (workspaceId credentialId : String)
    (authorization : Option String) : Response :=
  if InternalApiGuard.canActivate internalApiToken authorization then
    match CredentialsService.findSecret key rows workspaceId credentialId with
    | .ok (.secret response) => ⟨200, some response.toJson⟩
    | .error (.notFoundException message) => ⟨404, some (exceptionBody 404 message "Not Found")⟩
    | _ => ⟨500, some (.obj [("statusCode", .num 500), ("message", .str "Internal server error")])⟩
  else ⟨403, some (exceptionBody 403 "Internal API token is invalid" "Forbidden")⟩

end FlowPilot.Api

namespace FlowPilot.AiOrchestrator

open Api

/-! ## The two services together -/

/-- A text that the router takes for a segment of a path as it stands. -/
def IsSegment (s : String) : Prop :=
  s ∉ ["", ".", ".."] ∧ utf16Length s ≤ 100
    ∧ ∀ c ∈ s.toList, c.isAlphanum ∨ c ∈ ['-', '_', '.', '~']

-- characters of the list are checked, not all there are
instance (s : String) : Decidable (IsSegment s) :=
  let : Decidable (∀ c ∈ s.toList, c.isAlphanum ∨ c ∈ ['-', '_', '.', '~']) :=
    List.decidableBAll _ _
  inferInstanceAs (Decidable (_ ∧ _ ∧ _))

/-- The orchestrator talks to the API: the lookup of a secret, with the header
that it sends, is answered by the route for it. -/
def Connected [Aes256Gcm] (services : Services) (key internalApiToken : String)
    (rows : CredentialTable) : Prop :=
  ∀ workspaceId credentialId, IsSegment workspaceId → IsSegment credentialId →
    LookupAnswers services workspaceId credentialId
      (InternalCredentialsController.findSecret key internalApiToken rows workspaceId credentialId
        (some ("Bearer " ++ services.flowpilotInternalApiToken)))

/-- The guard lets through who knows the token. -/
theorem canActivate_bearer (internalApiToken token : String) :
    InternalApiGuard.canActivate internalApiToken (some ("Bearer " ++ token)) = true
      ↔ token = internalApiToken := by
  have hlength : "Bearer ".length = 7 := rfl
  simp [InternalApiGuard.canActivate, hlength]

section

variable [Aes256Gcm] {services : Services} {key internalApiToken : String}
  {rows : CredentialTable} {stored : StoredCredentials} {workspaceId id : String}

/-! ### The lookup -/

/-- A secret as the orchestrator reads it. -/
def secretOf (dto : CreateCredentialDto) (workspaceId id : String) : CredentialSecret where
  id
  workspaceId
  type := dto.type.literal
  kind := dto.kind.literal
  capabilities := dto.capabilities
  value := dto.value.val

omit [Aes256Gcm] in
theorem strList?_map (items : List String) :
    strList? (some (.arr (items.map .str))) = some items := by
  rw [strList?, List.mapM_map]
  induction items with
  | nil => rfl
  | cons item items ih =>
      rw [List.mapM_cons, ih]
      rfl

omit [Aes256Gcm] in
theorem modelValidate_secret (dto : CreateCredentialDto) (workspaceId id : String) :
    CredentialSecret.modelValidate (dto.secret workspaceId id).toJson
      = some (secretOf dto workspaceId id) := by
  have hcapabilities := strList?_map dto.capabilities
  simp [CredentialSecret.modelValidate, CredentialSecretResponse.toJson, forbidExtra, str?,
    List.lookup_cons, hcapabilities, CreateCredentialDto.secret, secretOf]

/-- What the lookup comes to. -/
theorem getSecret_eq (hconnected : Connected services key internalApiToken rows)
    (himplements : Implements key rows stored) (hworkspace : IsSegment workspaceId)
    (hid : IsSegment id) :
    getSecret services workspaceId id =
      if services.flowpilotInternalApiToken = internalApiToken then
        match stored workspaceId id with
        | some dto => .ok (secretOf dto workspaceId id)
        | none => .error (.credentialNotFoundError "Credential not found")
      else .error (.credentialAccessDeniedError "Internal credential access denied") := by
  have hanswer := hconnected workspaceId id hworkspace hid
  split
  · rename_i htoken
    rw [InternalCredentialsController.findSecret, if_pos ((canActivate_bearer _ _).mpr htoken),
      himplements.findSecret_eq] at hanswer
    cases hstored : stored workspaceId id with
    | none =>
        rw [hstored] at hanswer
        exact getSecret_of_notFound hanswer rfl
    | some dto =>
        rw [hstored] at hanswer
        have hstatus : (200 : Nat) < 400 := by decide
        exact getSecret_of_credential hanswer hstatus (modelValidate_secret dto _ _)
  · rename_i htoken
    rw [InternalCredentialsController.findSecret,
      if_neg fun h => htoken ((canActivate_bearer _ _).mp h)] at hanswer
    exact getSecret_of_denied hanswer rfl

/-- The credential goes with the provider. -/
def Fits (provider : CloudProvider) (dto : CreateCredentialDto) : Prop :=
  dto.type.literal ∈ credentialTypes provider ∧ dto.kind = .llm ∧ "llm.chat" ∈ dto.capabilities

omit [Aes256Gcm] in
theorem matches_secretOf {provider : CloudProvider} {dto : CreateCredentialDto} :
    Matches provider (secretOf dto workspaceId id) ↔ Fits provider dto := by
  have hkind : dto.kind.literal = "llm" ↔ dto.kind = .llm := by
    cases dto.kind <;> decide
  simp [Matches, Fits, secretOf, hkind]

omit [Aes256Gcm] in
theorem getCredentialOfType_of_matches {credential : CredentialSecret}
    (hsecret : getSecret services workspaceId id = .ok credential)
    (hchecks : ensureCredentialSupports credential credential.type "llm" "llm.chat" = .ok ()) :
    getCredentialOfType services credential.type workspaceId id = .ok credential.value := by
  rw [getCredentialOfType, hsecret]
  change (ensureCredentialSupports credential credential.type "llm" "llm.chat"
    >>= fun _ => pure credential.value) = _
  rw [hchecks]
  rfl

omit [Aes256Gcm] in
/-- A provider gets the value of a credential that goes with it. -/
theorem getCredential_of_matches {provider : CloudProvider} {credential : CredentialSecret}
    (hprovider : provider = openRouterProvider ∨ provider = openAiProvider
      ∨ provider = anthropicProvider)
    (hsecret : getSecret services workspaceId id = .ok credential)
    (h : Matches provider credential) :
    provider.getCredential services workspaceId id = .ok credential.value := by
  obtain ⟨htype, hkind, hcapability⟩ := h
  have hchecks : ensureCredentialSupports credential credential.type "llm" "llm.chat" = .ok () := by
    simp only [ensureCredentialSupports, hkind, hcapability, ne_eq, not_true, if_false]
    rfl
  have hof := getCredentialOfType_of_matches hsecret hchecks
  rcases hprovider with rfl | rfl | rfl
  · have htype : credential.type = "openrouter" := List.mem_singleton.mp htype
    rwa [htype] at hof
  · have htype : credential.type = "openai" := List.mem_singleton.mp htype
    rwa [htype] at hof
  · have hknown : credential.type ∈ ["claude", "anthropic"] := htype
    simp only [anthropicProvider, hsecret, hknown, hchecks, not_true, if_false, bind, Except.bind]
    rfl

/-- The value that a provider gets, if any. -/
theorem getCredential_eq_ok {provider : CloudProvider} {value : String}
    (hprovider : provider = openRouterProvider ∨ provider = openAiProvider
      ∨ provider = anthropicProvider)
    (hconnected : Connected services key internalApiToken rows)
    (himplements : Implements key rows stored) (hworkspace : IsSegment workspaceId)
    (hid : IsSegment id) :
    provider.getCredential services workspaceId id = .ok value
      ↔ services.flowpilotInternalApiToken = internalApiToken
        ∧ ∃ dto, stored workspaceId id = some dto ∧ Fits provider dto ∧ dto.value.val = value := by
  have hsecret := getSecret_eq hconnected himplements hworkspace hid
  by_cases htoken : services.flowpilotInternalApiToken = internalApiToken
  · rw [if_pos htoken] at hsecret
    cases hstored : stored workspaceId id with
    | none =>
        rw [hstored] at hsecret
        refine iff_of_false (fun h => ?_) (by simp)
        cases (getCredential_of_error hprovider hsecret).symm.trans h
    | some dto =>
        rw [hstored] at hsecret
        by_cases hfits : Fits provider dto
        · rw [getCredential_of_matches hprovider hsecret (matches_secretOf.mpr hfits)]
          simp [htoken, hfits, secretOf]
        · obtain ⟨message, herror⟩ := getCredential_of_mismatch hprovider hsecret
            (fun h => hfits (matches_secretOf.mp h))
          rw [herror]
          simp [hfits]
  · rw [if_neg htoken] at hsecret
    rw [getCredential_of_error hprovider hsecret]
    simp [htoken]

/-! ### The run -/

omit [Aes256Gcm] in
/-- A provider behind the network has run. -/
theorem run_eq_ok {provider : CloudProvider} {request : PromptRunRequest} {result : Record} :
    provider.run services request = .ok result
      ↔ ∃ id value, request.config.credentialId = some id
        ∧ provider.getCredential services request.context.workspaceId id = .ok value
        ∧ services.complete provider.providerName value request.config request.input
          = .result result := by
  unfold CloudProvider.run
  cases hid : request.config.credentialId with
  | none => simp [throw, throwThe, MonadExceptOf.throw]
  | some id =>
      cases hcredential : provider.getCredential services request.context.workspaceId id with
      | error e => simp [hcredential, bind, Except.bind]
      | ok value =>
          cases hcomplete : services.complete provider.providerName value request.config
            request.input <;>
            simp [hcredential, hcomplete, bind, Except.bind, throw, throwThe, MonadExceptOf.throw,
              pure, Except.pure]

omit [Aes256Gcm] in
theorem exceptionResponse_not_ok (e : PythonException) : (exceptionResponse e).ok = false := by
  cases e <;> rfl

omit [Aes256Gcm] in
theorem readResult_of_not_ok {response : Response} (h : response.ok = false) (result : Record) :
    AiOrchestratorClient.readResult response ≠ .ok result := by
  intro hresult
  cases hjson : response.json with
  | none =>
      rw [AiOrchestratorClient.readResult_of_notJson hjson] at hresult
      cases hresult
  | some data =>
      obtain ⟨code, message, heq⟩ := AiOrchestratorClient.readResult_of_failed hjson h
      rw [heq] at hresult
      cases hresult

omit [Aes256Gcm] in
theorem runPrompt_of_ok {body : Json} {request : PromptRunRequest} {result : Record}
    (hbody : PromptRunRequest.modelValidate body = some request)
    (h : promptServiceRunPrompt services request = .ok result) :
    runPrompt services body = ⟨200, some (.obj [("result", .obj result)])⟩ := by
  simp only [runPrompt, hbody, h]

omit [Aes256Gcm] in
theorem runPrompt_of_error {body : Json} {request : PromptRunRequest} {e : PythonException}
    (hbody : PromptRunRequest.modelValidate body = some request)
    (h : promptServiceRunPrompt services request = .error e) :
    runPrompt services body = exceptionResponse e := by
  simp only [runPrompt, hbody, h]

omit [Aes256Gcm] in
/-- The executor reads the response that the route makes of the service's
end. -/
theorem executeAiPromptActionNode_eq_readResult {node : WorkflowNode} {config : AiPromptConfig}
    {context : WorkflowNodeExecutionContext} {client : AiOrchestratorClient} :
    client.executeAiPromptActionNode services.fetch node config context
      = AiOrchestratorClient.readResult (match promptServiceRunPrompt services
          ⟨promptRunContext node context, promptRunConfig config, context.input⟩ with
        | .ok result => ⟨200, some (.obj [("result", .obj result)])⟩
        | .error e => exceptionResponse e) := by
  have hexecute : client.executeAiPromptActionNode services.fetch node config context
      = AiOrchestratorClient.readResult (runPrompt services (createPromptRunPayload
        (FlowPilot.executeAiPromptActionNode node config context))) :=
    AiOrchestratorClient.runPrompt_response rfl
  rw [hexecute]
  cases hresult : promptServiceRunPrompt services
      ⟨promptRunContext node context, promptRunConfig config, context.input⟩ with
  | ok result =>
      exact congrArg AiOrchestratorClient.readResult
        (runPrompt_of_ok (modelValidate_payload ..) hresult)
  | error e =>
      exact congrArg AiOrchestratorClient.readResult
        (runPrompt_of_error (modelValidate_payload ..) hresult)

omit [Aes256Gcm] in
/-- The node has the result of the service. -/
theorem executeAiPromptActionNode_eq_ok {node : WorkflowNode} {config : AiPromptConfig}
    {context : WorkflowNodeExecutionContext} {client : AiOrchestratorClient} {result : Record} :
    client.executeAiPromptActionNode services.fetch node config context = .ok result
      ↔ promptServiceRunPrompt services
          ⟨promptRunContext node context, promptRunConfig config, context.input⟩ = .ok result := by
  rw [executeAiPromptActionNode_eq_readResult]
  cases promptServiceRunPrompt services
      ⟨promptRunContext node context, promptRunConfig config, context.input⟩ with
  | ok output =>
      have hread : AiOrchestratorClient.readResult ⟨200, some (.obj [("result", .obj output)])⟩
          = .ok output := by
        simp [AiOrchestratorClient.readResult, readResponseBody, Response.ok]
        rfl
      rw [hread, Except.ok.injEq, Except.ok.injEq]
  | error e =>
      refine iff_of_false ?_ (by simp)
      exact readResult_of_not_ok (exceptionResponse_not_ok e) result

/-- **Credentials of AI nodes.** After any run of requests to the API, an AI
node succeeds exactly if its provider is the deterministic one, or the services
share a token, the credential it names was created in the workspace of the
execution and not removed since, type, kind and capabilities go with the
provider, and the provider answers to the value that was created. -/
theorem executeAiPromptActionNode_ok_iff (key internalApiToken : String) (collation : Collation)
    (actions : List CredentialAction) (services : Services) (client : AiOrchestratorClient)
    (node : WorkflowNode) (config : AiPromptConfig) (context : WorkflowNodeExecutionContext)
    (result : Record)
    (hconnected : Connected services key internalApiToken
      (Unwinding.final (credentialStep key collation) [] actions))
    (hworkspace : IsSegment context.message.workspaceId)
    (hid : ∀ id, config.credentialId = some id → IsSegment id.val) :
    let stored := storedAfter (Unwinding.replies (credentialStep key collation) [] actions)
    let request := ⟨promptRunContext node context, promptRunConfig config, context.input⟩
    client.executeAiPromptActionNode services.fetch node config context = .ok result
      ↔ providers.lookup config.provider.val = some .deterministic
          ∧ deterministicRun services request = result
        ∨ ∃ provider id dto, providers.lookup config.provider.val = some (.cloud provider)
          ∧ config.credentialId = some id
          ∧ services.flowpilotInternalApiToken = internalApiToken
          ∧ stored context.message.workspaceId id.val = some dto ∧ Fits provider dto
          ∧ services.complete provider.providerName dto.value.val request.config request.input
            = .result result := by
  intro stored request
  have himplements : Implements key _ stored := implements_run key collation actions
  rw [executeAiPromptActionNode_eq_ok]
  change promptServiceRunPrompt services request = .ok result ↔ _
  have hname : request.config.provider = config.provider.val := rfl
  cases hlookup : providers.lookup config.provider.val with
  | none => simp [promptServiceRunPrompt, registryGet, hname, hlookup, throw, throwThe,
      MonadExceptOf.throw, bind, Except.bind]
  | some provider =>
      cases provider with
      | deterministic =>
          simp [promptServiceRunPrompt, registryGet, hname, hlookup, bind, Except.bind, pure,
            Except.pure]
      | cloud provider =>
          have hprovider := cloud_of_lookup hlookup
          have hrun : promptServiceRunPrompt services request = provider.run services request := by
            simp [promptServiceRunPrompt, registryGet, hname, hlookup]
          rw [hrun, run_eq_ok]
          constructor
          · rintro ⟨id, value, hcredential, hvalue, hcomplete⟩
            obtain ⟨id, hconfig, rfl⟩ := Option.map_eq_some_iff.mp hcredential
            obtain ⟨htoken, dto, hstored, hfits, rfl⟩ := (getCredential_eq_ok hprovider hconnected
              himplements hworkspace (hid id hconfig)).mp hvalue
            exact Or.inr ⟨provider, id, dto, rfl, hconfig, htoken, hstored, hfits, hcomplete⟩
          · rintro (⟨hdeterministic, -⟩ | ⟨_, id, dto, hcloud, hconfig, htoken, hstored, hfits,
              hcomplete⟩)
            · cases hdeterministic
            · cases hcloud
              exact ⟨id.val, dto.value.val, congrArg (Option.map _) hconfig,
                (getCredential_eq_ok hprovider hconnected himplements hworkspace
                  (hid id hconfig)).mpr ⟨htoken, dto, hstored, hfits, rfl⟩, hcomplete⟩

end

/-! ## An instance -/

/-- The path of some segments. -/
def pathOf : List String → String
  | [] => ""
  | segment :: segments => "/" ++ segment ++ pathOf segments

theorem secretUrl_eq (services : Services) (workspaceId credentialId : String) :
    secretUrl services workspaceId credentialId = rstripSlash services.flowpilotApiUrl
      ++ pathOf ["internal", "workspaces", workspaceId, "credentials", credentialId, "secret"] := by
  have hworkspaces : "/internal/workspaces/"
      = "/" ++ ("internal" ++ ("/" ++ ("workspaces" ++ "/"))) := rfl
  have hcredentials : "/credentials/" = "/" ++ ("credentials" ++ "/") := rfl
  have hsecret : "/secret" = "/" ++ ("secret" ++ "") := rfl
  simp only [secretUrl, pathOf, hworkspaces, hcredentials, hsecret, String.append_assoc]

/-- The segments of a URL below a base. -/
def segmentsBelow (base url : String) : List String :=
  (((url.toList.drop base.length).splitOn '/').drop 1).map String.ofList

theorem IsSegment.no_slash {s : String} (h : IsSegment s) : '/' ∉ s.toList := fun hmem =>
  absurd (h.2.2 '/' hmem) (by decide)

theorem splitOn_pathOf {segments : List String} (h : ∀ s ∈ segments, IsSegment s) :
    ∀ {first : List Char}, '/' ∉ first → (first ++ (pathOf segments).toList).splitOn '/'
      = first :: segments.map String.toList := by
  induction segments with
  | nil =>
      intro first hfirst
      simpa [pathOf] using List.splitOn_eq_singleton hfirst
  | cons s segments ih =>
      intro first hfirst
      obtain ⟨hs, hrest⟩ := List.forall_mem_cons.mp h
      have hpath : (pathOf (s :: segments)).toList
          = '/' :: (s.toList ++ (pathOf segments).toList) := by simp [pathOf]
      rw [hpath, List.splitOn_append_cons_self_of_not_mem hfirst, ih hrest hs.no_slash]
      rfl

/-- A path of segments names them. -/
theorem segmentsBelow_pathOf (base : String) {segments : List String}
    (h : ∀ s ∈ segments, IsSegment s) :
    segmentsBelow base (base ++ pathOf segments) = segments := by
  have hdrop : (base ++ pathOf segments).toList.drop base.length = (pathOf segments).toList := by
    rw [String.toList_append, ← String.length_toList, List.drop_left]
  have hsplit := splitOn_pathOf h (List.not_mem_nil (a := '/'))
  rw [List.nil_append] at hsplit
  rw [segmentsBelow, hdrop, hsplit]
  simp [Function.comp_def]

/-- An orchestrator of an API with some credentials, of which it asks nothing
else, and a provider that answers to one key only. -/
def connectedServices [Aes256Gcm] (key token : String) (rows : CredentialTable) : Services where
  flowpilotApiUrl := "http://api:3000/api"
  flowpilotInternalApiToken := token
  httpxGet url authorization :=
    match segmentsBelow "http://api:3000/api" url with
    | ["internal", "workspaces", workspaceId, "credentials", credentialId, "secret"] =>
        .response (InternalCredentialsController.findSecret key token rows workspaceId credentialId
          (some authorization))
    | _ => .httpError
  complete _ credential _ _ := if credential = "sk-test" then .result [] else .failed
  jsonDumps _ := "\x7b\x7d"
  validationErrors _ := []

theorem connectedServices_connected [Aes256Gcm] (key token : String) (rows : CredentialTable) :
    Connected (connectedServices key token rows) key token rows := by
  intro workspaceId credentialId hworkspace hid
  have hbase : rstripSlash "http://api:3000/api" = "http://api:3000/api" := by decide
  have hsegments : ∀ s ∈ ["internal", "workspaces", workspaceId, "credentials", credentialId,
      "secret"], IsSegment s := by
    simp only [List.forall_mem_cons, hworkspace, hid, true_and, List.not_mem_nil, false_implies,
      implies_true, and_true]
    decide
  rw [LookupAnswers, secretUrl_eq]
  simp only [connectedServices, hbase, segmentsBelow_pathOf _ hsegments]

/-- A node that runs with the key of its workspace. -/
theorem executeAiPromptActionNode_ok_openAi :
    let _ := Aes256Gcm.plain
    let config := promptConfig ⟨"openai", by decide⟩ (some ⟨"credential", by decide⟩)
    let actions := [CredentialAction.mk ⟨0, "credential", "iv"⟩
      (.create "workspace" "user" (openAiCredential ⟨"sk-test", by decide⟩))]
    let rows := Unwinding.final (credentialStep "key" .binary) [] actions
    AiOrchestratorClient.executeAiPromptActionNode ⟨"", 5000⟩
      (connectedServices "key" "token" rows).fetch (promptNode config) config promptContext
        = .ok [] := by
  intro _ config actions rows
  have hid : ∀ id, config.credentialId = some id → IsSegment id.val := by
    rintro id ⟨⟩
    decide
  refine (executeAiPromptActionNode_ok_iff "key" "token" .binary actions
    (connectedServices "key" "token" rows) ⟨"", 5000⟩ (promptNode config) config promptContext []
    (connectedServices_connected "key" "token" rows) (by decide) hid).mpr (Or.inr ?_)
  exact ⟨openAiProvider, ⟨"credential", by decide⟩, openAiCredential ⟨"sk-test", by decide⟩, rfl,
    rfl, rfl, rfl, ⟨by decide, rfl, by decide⟩, rfl⟩

end FlowPilot.AiOrchestrator
