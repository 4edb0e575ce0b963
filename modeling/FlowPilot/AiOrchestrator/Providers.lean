import FlowPilot.AiOrchestrator.PromptService
import FlowPilot.AiOrchestrator.ResponseParsing

/-!
# The providers behind the network

What the providers of OpenRouter, OpenAI and Anthropic send, and what they
make of every way the request can end. Two of them go through the client of
a library, which throws for a failed status; the third posts the request
itself and checks the status. Behind that they are alike: a reply is parsed
by one of two parsers (`ReplyParser`), and token counts that it does not
give are estimated (`promptRunResult`).

`Network.complete` is the `complete` of `Services` that they amount to.
-/

namespace FlowPilot.AiOrchestrator

/-! ## Values of Python -/

/-- What Python's decoder makes of JSON. -/
inductive PyValue where
  | none
  | bool (b : Bool)
  | int (i : Int)
  | float (q : Rat)
  | str (s : String)
  | list (items : List PyValue)
  | dict (fields : List (String × PyValue))

mutual

/-- As the body of a response has it. -/
def PyValue.toJson : PyValue → Json
  | .none => .null
  | .bool b => .bool b
  | .int i => .num i
  | .float q => .num q
  | .str s => .str s
  | .list items => .arr (PyValue.itemsToJson items)
  | .dict fields => .obj (PyValue.fieldsToJson fields)

def PyValue.itemsToJson : List PyValue → List Json
  | [] => []
  | item :: items => item.toJson :: PyValue.itemsToJson items

def PyValue.fieldsToJson : List (String × PyValue) → Record
  | [] => []
  | (k, v) :: fields => (k, v.toJson) :: PyValue.fieldsToJson fields

end

abbrev PyDict := List (String × PyValue)

/-! ## Requests -/

abbrev ChatMessage := List (String × String)

/-- `build_user_chat_message`; `dumps` is the sorted `json.dumps`. -/
def buildUserChatMessage (dumps : Record → String) (config : PromptRunConfig) (inputData : Record) :
    ChatMessage :=
  [("role", "user"), ("content", config.prompt ++ "\n\n" ++ "Input:\n" ++ dumps inputData)]

/-- `build_chat_messages`. -/
def buildChatMessages (dumps : Record → String) (config : PromptRunConfig) (inputData : Record) :
    List ChatMessage :=
  (match config.systemPrompt with
    | some systemPrompt =>
        if systemPrompt = "" then [] else [[("role", "system"), ("content", systemPrompt)]]
    | none => []) ++ [buildUserChatMessage dumps config inputData]

/-- `payload`. -/
structure ChatRequest where
  model : String
  temperature : Rat
  messages : List ChatMessage

/-! ## Replies -/

/-- `get_first_choice`. -/
def getFirstChoice (responseBody : PyDict) : Option PyDict :=
  match responseBody.lookup "choices" with
  | some (.list (.dict firstChoice :: _)) => some firstChoice
  | _ => none

/-- `extract_openai_compatible_content`; which `ValueError` it is is not
used. -/
def extractOpenAiCompatibleContent (responseBody : PyDict) : Option String :=
  match (getFirstChoice responseBody).bind (·.lookup "message") with
  | some (.dict message) =>
      match message.lookup "content" with
      | some (.str content) => if strip content = "" then none else some content
      | _ => none
  | _ => none

/-- `extract_openai_compatible_finish_reason`. -/
def extractOpenAiCompatibleFinishReason (responseBody : PyDict) : Option String :=
  match (getFirstChoice responseBody).bind (·.lookup "finish_reason") with
  | some (.str finishReason) => some finishReason
  | _ => none

/-- `extract_anthropic_stop_reason`. -/
def extractAnthropicStopReason (responseBody : PyDict) : Option String :=
  match responseBody.lookup "stop_reason" with
  | some (.str stopReason) => some stopReason
  | _ => none

/-- The value where `is_non_negative_integer` holds, as an `int` field takes
it; `bool` is a subclass of `int`. -/
def nonNegativeInteger? : Option PyValue → Option Nat
  | some (.int i) => if 0 ≤ i then some i.toNat else none
  | some (.bool b) => some b.toNat
  | _ => none

/-- `extract_openai_compatible_token_usage` and
`extract_anthropic_token_usage`, by the names of the counts. -/
def extractTokenUsage (inputName outputName : String) (responseBody : PyDict) :
    Option Nat × Option Nat :=
  match responseBody.lookup "usage" with
  | some (.dict usage) =>
      (nonNegativeInteger? (usage.lookup inputName), nonNegativeInteger? (usage.lookup outputName))
  | _ => (none, none)

structure ReplyParser where
  content : PyDict → Option String
  finishReason : PyDict → Option String
  tokenUsage : PyDict → Option Nat × Option Nat

def openAiCompatible : ReplyParser where
  content := extractOpenAiCompatibleContent
  finishReason := extractOpenAiCompatibleFinishReason
  tokenUsage := extractTokenUsage "prompt_tokens" "completion_tokens"

def anthropicCompatible : ReplyParser where
  content responseBody := (extractAnthropicContent (PyValue.fieldsToJson responseBody)).toOption
  finishReason := extractAnthropicStopReason
  tokenUsage := extractTokenUsage "input_tokens" "output_tokens"

/-- What is read from a reply. -/
structure Reply where
  summary : String
  finishReason : Option String
  inputTokens : Option Nat
  outputTokens : Option Nat
  providerLatencyMs : Nat

/-- The body is an object with a content. -/
def ReplyParser.parse (parser : ReplyParser) (body : Option PyValue) (providerLatencyMs : Nat) :
    Option Reply :=
  match body with
  | some (.dict responseBody) =>
      (parser.content responseBody).map fun summary =>
        { summary
          finishReason := parser.finishReason responseBody
          inputTokens := (parser.tokenUsage responseBody).1
          outputTokens := (parser.tokenUsage responseBody).2
          providerLatencyMs }
  | _ => none

/-! ## Results -/

/-- `estimate_text_tokens`. -/
def estimateTextTokens (text : String) : Nat := max 1 ((text.length + 3) / 4)

/-- The token counts of a result; `compactInput` is the compact
`json.dumps`. -/
def replyInputTokens (config : PromptRunConfig) (compactInput : String) (reply : Reply) : Nat :=
  reply.inputTokens.getD (estimateTextTokens (config.prompt ++ compactInput))

def replyOutputTokens (reply : Reply) : Nat :=
  reply.outputTokens.getD (max 12 (estimateTextTokens reply.summary))

/-- `PromptRunResult(...)`, as the response has it. -/
def promptRunResult (providerName : String) (config : PromptRunConfig) (inputData : Record)
    (compactInput : String) (reply : Reply) : Record :=
  [("provider", .str providerName), ("model", .str config.model), ("prompt", .str config.prompt),
    ("temperature", .num config.temperature), ("summary", .str reply.summary),
    ("tokens", .obj [("input", .num (replyInputTokens config compactInput reply)),
      ("output", .num (replyOutputTokens reply))]),
    ("trace", .obj [("deterministic", .bool false),
      ("inputKeys", .arr ((inputData.map (·.1)).mergeSort.map .str)),
      ("providerLatencyMs", .num reply.providerLatencyMs),
      ("finishReason", Json.orNull (reply.finishReason.map .str))])]

/-! ## Exchanges -/

/-- How `client.chat.completions.create` ends. -/
inductive CreateOutcome where
  | response (body : PyValue) (providerLatencyMs : Nat)
  | apiTimeoutError
  | apiStatusError (statusCode : Nat) (body : Option Json)
  | apiConnectionError
  | exception

/-- A response of `httpx.post`; `json` is `none` where `response.json()`
raises. -/
structure HttpxResponse where
  statusCode : Nat
  json : Option PyValue
  text : String

/-- How `httpx.post` ends. -/
inductive PostOutcome where
  | response (response : HttpxResponse) (providerLatencyMs : Nat)
  | timeoutException
  | httpError
  | exception

/-- `parse_error_response`. -/
def parseErrorResponse (response : HttpxResponse) : Option Json :=
  match response.json with
  | some .none => none
  | some value => some value.toJson
  | none =>
      let text := strip response.text
      if text = "" then none else some (.str (String.ofList (text.toList.take 500)))

/-- How an exchange ended, for all providers. -/
inductive Exchange where
  | replied (body : Option PyValue) (providerLatencyMs : Nat)
  | timedOut
  | failedWithStatus (statusCode : Nat) (body : Option Json)
  | failed
  | exception

/-- The `except` clauses around the client of a library. -/
def CreateOutcome.exchange : CreateOutcome → Exchange
  | .response body providerLatencyMs => .replied (some body) providerLatencyMs
  | .apiTimeoutError => .timedOut
  | .apiStatusError statusCode body => .failedWithStatus statusCode body
  | .apiConnectionError => .failed
  | .exception => .exception

/-- The `except` clauses of the OpenRouter provider, with
`raise_for_status`. -/
def PostOutcome.exchange : PostOutcome → Exchange
  | .response answer providerLatencyMs =>
      if 200 ≤ answer.statusCode ∧ answer.statusCode ≤ 299 then
        .replied answer.json providerLatencyMs
      else .failedWithStatus answer.statusCode (parseErrorResponse answer)
  | .timeoutException => .timedOut
  | .httpError => .failed
  | .exception => .exception

/-- What the providers reach. -/
structure Network where
  sortedDumps : Record → String
  compactDumps : Record → String
  post : (credential : String) → ChatRequest → PostOutcome
  createOpenAi : (credential : String) → ChatRequest → CreateOutcome
  createAnthropic : (credential : String) → ChatRequest → CreateOutcome

namespace Network

variable (network : Network)

def chatRequest (config : PromptRunConfig) (inputData : Record) : ChatRequest where
  model := config.model
  temperature := config.temperature
  messages := buildChatMessages network.sortedDumps config inputData

/-- The exchange of a provider, and the parser of its replies. -/
def exchange (providerName credential : String) (config : PromptRunConfig) (inputData : Record) :
    Exchange :=
  let request := network.chatRequest config inputData
  if providerName = "openrouter" then (network.post credential request).exchange
  else if providerName = "openai" then (network.createOpenAi credential request).exchange
  else (network.createAnthropic credential request).exchange

def parser (providerName : String) : ReplyParser :=
  if providerName = "anthropic" then anthropicCompatible else openAiCompatible

/-- What the rest of `run` makes of the exchange. -/
def complete (providerName credential : String) (config : PromptRunConfig) (inputData : Record) :
    Completion :=
  match network.exchange providerName credential config inputData with
  | .replied body providerLatencyMs =>
      match (parser providerName).parse body providerLatencyMs with
      | some reply => .result (promptRunResult providerName config inputData
          (network.compactDumps inputData) reply)
      | none => .invalidResponse
  | .timedOut => .timedOut
  | .failedWithStatus statusCode body => .failedWithStatus statusCode body
  | .failed => .failed
  | .exception => .exception

end Network

end FlowPilot.AiOrchestrator
