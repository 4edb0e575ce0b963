import FlowPilot.JsonText
import FlowPilot.Worker.Messages

/-!
# The text of a command

The guard of the worker's parser on what `JSON.parse` returns, infinities
included. On a value without infinities it is the guard that the model of the
worker uses (`ParsedJson.isWorkflowExecutionRequestedMessage_ofJson`), so a text
all of whose numbers are finite is accepted exactly if the model accepts its
value. `Buffer.ReadBack` says which content a consumer finds in a message
that was written with `JSON.stringify`.
-/

namespace FlowPilot

namespace ParsedJson

def isRecord : ParsedJson → Bool
  | .obj _ => true
  | _ => false

def get? : ParsedJson → String → Option ParsedJson
  | .obj fields, key => fields.lookup key
  | _, _ => none

def isString : Option ParsedJson → Bool
  | some (.str _) => true
  | _ => false

def isNumber : Option ParsedJson → Bool
  | some (.num _) => true
  | _ => false

/-- `value === literal`, for a string. -/
def isText (literal : String) : Option ParsedJson → Bool
  | some (.str s) => s == literal
  | _ => false

/-- `value === n`. -/
def isNat (n : Nat) : Option ParsedJson → Bool
  | some (.num x) => x = .finite n
  | _ => false

/-- `isWorkflowExecutionRequestedMessage`. -/
def isWorkflowExecutionRequestedMessage (value : ParsedJson) : Bool :=
  value.isRecord
  && isText FlowPilotRoutingKey.workflowExecutionRequested.literal (value.get? "eventName")
  && isString (value.get? "eventId")
  && isNat messageSchemaVersion (value.get? "schemaVersion")
  && isString (value.get? "occurredAt")
  && isString (value.get? "workspaceId")
  && isString (value.get? "correlationId")
  && isText producerApi (value.get? "producer")
  && match value.get? "payload" with
    | some payload =>
        payload.isRecord
        && isString (payload.get? "workflowId")
        && isNumber (payload.get? "workflowVersion")
        && isString (payload.get? "executionId")
        && (match payload.get? "requestedBy" with
          | some requestedBy =>
              requestedBy.isRecord
              && isText "user" (requestedBy.get? "type")
              && isString (requestedBy.get? "id")
          | none => false)
        && (match payload.get? "input" with
          | some input => input.isRecord
          | none => false)
    | none => false

/-! ## Values without infinities -/

theorem lookup_toValueFields (f : Rat → JsNumber) (key : String)
    (fields : List (String × Json)) :
    (Json.toValueFields f fields).lookup key = (fields.lookup key).map (Json.toValue f) := by
  induction fields with
  | nil => rfl
  | cons field fields ih =>
    obtain ⟨key', v⟩ := field
    rw [Json.toValueFields, List.lookup_cons, List.lookup_cons, ih]
    cases key == key' <;> rfl

@[simp] theorem get?_ofJson (value : Json) (key : String) :
    (ofJson value).get? key = (value.get? key).map ofJson := by
  cases value with
  | obj fields => exact lookup_toValueFields .finite key fields
  | null | bool | num | str | arr => rfl

@[simp] theorem isRecord_ofJson (value : Json) : (ofJson value).isRecord = value.isRecord := by
  cases value <;> rfl

@[simp] theorem isString_map_ofJson (value : Option Json) :
    isString (value.map ofJson) = Json.isString value := by
  cases value with
  | none => rfl
  | some value => cases value <;> rfl

@[simp] theorem isNumber_map_ofJson (value : Option Json) :
    isNumber (value.map ofJson) = Json.isNumber value := by
  cases value with
  | none => rfl
  | some value => cases value <;> rfl

@[simp] theorem isText_map_ofJson (literal : String) (value : Option Json) :
    isText literal (value.map ofJson) = (value == some (.str literal)) := by
  rw [Bool.eq_iff_iff, beq_iff_eq]
  cases value with
  | none => simp [isText]
  | some value => cases value <;> simp [isText, ofJson, Json.toValue]

@[simp] theorem isNat_map_ofJson (n : Nat) (value : Option Json) :
    isNat n (value.map ofJson) = (value == some (.num n)) := by
  rw [Bool.eq_iff_iff, beq_iff_eq]
  cases value with
  | none => simp [isNat]
  | some value => cases value <;> simp [isNat, ofJson, Json.toValue]

/-- The guard agrees with the one on values without infinities. -/
theorem isWorkflowExecutionRequestedMessage_ofJson (value : Json) :
    (ofJson value).isWorkflowExecutionRequestedMessage
      = FlowPilot.isWorkflowExecutionRequestedMessage value := by
  simp only [isWorkflowExecutionRequestedMessage, FlowPilot.isWorkflowExecutionRequestedMessage,
    get?_ofJson, isRecord_ofJson, isString_map_ofJson, isText_map_ofJson, isNat_map_ofJson]
  cases value.get? "payload" with
  | none => rfl
  | some payload =>
    simp only [Option.map_some, get?_ofJson, isRecord_ofJson, isString_map_ofJson,
      isNumber_map_ofJson]
    cases payload.get? "requestedBy" <;> cases payload.get? "input" <;> simp

end ParsedJson

/-! ## Written and read -/

/-- `read` is what a consumer makes of a content that was written with
`JSON.stringify`. -/
def Buffer.ReadBack (T : NumberText) (written read : Buffer) : Prop :=
  match written, read with
  | .json value, .json value' => T.reread (.ofJson value) = .ofJson value'
  | .notJson text, .notJson text' => text = text'
  | _, _ => False

namespace WorkflowExecutionRequestedMessage

variable {T : NumberText} {m : WorkflowExecutionRequestedMessage}

/-- The command is what `JSON.parse` makes of the text; none of its numbers is
too large for a double. -/
def ReadFrom (m : WorkflowExecutionRequestedMessage) (text : Json) : Prop :=
  ParsedJson.parse text = .ofJson m.value

/-- The texts that are accepted and hold no number too large are those of
commands. -/
theorem exists_readFrom_iff {text : Json} :
    (∃ m : WorkflowExecutionRequestedMessage, m.ReadFrom text)
      ↔ (ParsedJson.parse text).isWorkflowExecutionRequestedMessage = true
        ∧ ∀ x ∈ (ParsedJson.parse text).numbers, x.IsFinite := by
  rw [← ParsedJson.exists_ofJson_iff]
  constructor
  · rintro ⟨m, hm⟩
    refine ⟨?_, m.value, hm⟩
    rw [hm, ParsedJson.isWorkflowExecutionRequestedMessage_ofJson]
    exact m.accepted
  · rintro ⟨haccepted, value, hvalue⟩
    rw [hvalue, ParsedJson.isWorkflowExecutionRequestedMessage_ofJson] at haccepted
    exact ⟨⟨value, haccepted⟩, hvalue⟩

/-- So are the accepted texts that `JSON.stringify` wrote, whatever of: the
API writes no others, and the worker none either. -/
theorem exists_readFrom_stringify {v : ParsedJson} (hv : ∀ x ∈ v.numbers, x.IsDouble)
    (haccepted : (T.reread v).isWorkflowExecutionRequestedMessage = true) :
    ∃ m : WorkflowExecutionRequestedMessage, m.ReadFrom (T.stringify v) :=
  exists_readFrom_iff.mpr ⟨haccepted, T.isFinite_reread hv⟩

/-- Such a command is found unchanged in what is written of it. -/
theorem ReadFrom.readBack_iff {text : Json} (hm : m.ReadFrom text) {read : Buffer} :
    Buffer.ReadBack T (.json m.value) read ↔ read = .json m.value := by
  cases read with
  | json value =>
    rw [Buffer.ReadBack, T.reread_ofJson hm, ParsedJson.ofJson_injective.eq_iff, Buffer.json.injEq,
      eq_comm]
  | notJson => exact iff_of_false id nofun

end WorkflowExecutionRequestedMessage

end FlowPilot
