import FlowPilot.Web.Canvas
import FlowPilot.Worker.Messages

/-!
# Errors of AI providers on the execution page

`getAiProviderErrorDetails` reads what the page shows about a provider's
error out of the `error` column of a node, which is the failure of the worker
with its cause as JSON (`WorkerFailure.toJson`).
-/

namespace FlowPilot.Web

/-- `humanizeIdentifier` on strings. -/
def humanized (value : String) : String := String.ofList (humanizeIdentifier value.toList)

example : humanized "http_request-action" = "Http Request Action" := by decide

/-- `asRecord(value)?.[key]`. -/
def property (value : Option Json) (key : String) : Option Json := value.bind (·.get? key)

/-- `typeof value === "string" ? value : undefined`. -/
def stringOrUndefined : Option Json → Option String
  | some (.str s) => some s
  | _ => none

/-- `typeof value === "number" ? value : undefined`. -/
def numberOrUndefined : Option Json → Option Rat
  | some (.num q) => some q
  | _ => none

/-- `typeof value === "boolean" ? value : undefined`. -/
def booleanOrUndefined : Option Json → Option Bool
  | some (.bool b) => some b
  | _ => none

@[simp] theorem stringOrUndefined_str (s : String) : stringOrUndefined (some (.str s)) = some s :=
  rfl

@[simp] theorem booleanOrUndefined_bool (b : Bool) :
    booleanOrUndefined (some (.bool b)) = some b := rfl

structure AiProviderErrorDetails where
  provider : Option String
  retryable : Option Bool
  status : Option Rat
  title : String
  message : Option String
deriving DecidableEq

/-- `providerMessage`, of `detail.providerError`. -/
def providerMessage (providerError : Option Json) : Option String :=
  let providerErrorBody := property providerError "error"
  (stringOrUndefined (property (property providerErrorBody "metadata") "raw")).or
    (stringOrUndefined (property providerErrorBody "message"))

def getAiProviderErrorDetails (error : Json) : Option AiProviderErrorDetails :=
  let detail := property (property (property (some error) "cause") "responseBody") "detail"
  if property detail "code" = some (.str "ai_provider_error") then
    let status := numberOrUndefined (property detail "status")
    some
      { provider := (stringOrUndefined (property detail "provider")).map humanized
        retryable := booleanOrUndefined (error.get? "retryable")
        status
        title :=
          if status = some 429 then "The selected AI provider is rate-limited right now."
          else "The selected AI provider rejected this request."
        message := ((providerMessage (property detail "providerError")).or
          (stringOrUndefined (property detail "message"))).or
          (stringOrUndefined (error.get? "message")) }
  else none

end FlowPilot.Web
