import FlowPilot.Contracts.Schema

/-!
# Workflow nodes

The five node kinds of `packages/contracts/src/workflow-nodes`, as the types
their schemas return, and the schemas themselves. A parsed node carries the
bounds its schema has checked: an id is a `WorkflowNodeId`, a bounded string
a `BoundedString`, and the two cross-field rules (`pick` for a picking
transform, `value` for every operator but `exists`) are fields of the
configurations they belong to.
-/

namespace FlowPilot

/-! ## Ids and names -/

/-- `[A-Za-z0-9]`. -/
def isIdStart (c : Char) : Bool := c.isAlphanum

/-- `[A-Za-z0-9._:-]`. -/
def isIdChar (c : Char) : Bool :=
  c.isAlphanum || c == '.' || c == '_' || c == ':' || c == '-'

/-- `/^[A-Za-z0-9][A-Za-z0-9._:-]*$/`. -/
def nodeIdPattern (s : String) : Bool :=
  match s.toList with
  | [] => false
  | c :: cs => isIdStart c && cs.all isIdChar

/-- What `workflowNodeIdSchema` returns. -/
structure WorkflowNodeId where
  value : String
  length : 1 ≤ utf16Length value ∧ utf16Length value ≤ 80
  pattern : nodeIdPattern value = true
deriving DecidableEq

def workflowNodeIdSchema : Schema WorkflowNodeId := fun v =>
  (Schema.boundedString 1 80 v).andThen fun s =>
    if h : nodeIdPattern s.val = true then .ok ⟨s.val, s.property, h⟩
    else .fail .invalidFormat
      (some ("node ids must start with a letter or number and use letters, numbers, "
        ++ "dots, colons, underscores, or hyphens"))

abbrev WorkflowNodeName := BoundedString 1 120

def workflowNodeNameSchema : Schema WorkflowNodeName := Schema.boundedString 1 120

/-- An accepted id is not the empty string. -/
theorem WorkflowNodeId.value_ne_empty (id : WorkflowNodeId) : id.value ≠ "" := by
  intro h
  have hpat := id.pattern
  rw [h] at hpat
  exact absurd hpat (by decide)

/-- Every character of an accepted id is one the pattern lists. -/
theorem WorkflowNodeId.isIdChar_of_mem (id : WorkflowNodeId) {c : Char}
    (hc : c ∈ id.value.toList) : isIdChar c = true := by
  have hpat := id.pattern
  unfold nodeIdPattern at hpat
  cases hl : id.value.toList with
  | nil => rw [hl] at hc; cases hc
  | cons d ds =>
      rw [hl] at hc hpat
      simp only [Bool.and_eq_true, List.all_eq_true] at hpat
      rcases List.mem_cons.mp hc with rfl | hds
      · have hstart : c.isAlphanum = true := hpat.1
        simp [isIdChar, hstart]
      · exact hpat.2 c hds

/-! ## Node kinds -/

inductive WorkflowNodeType where
  | manualTrigger
  | transformAction
  | conditionAction
  | httpRequestAction
  | aiPromptAction
deriving DecidableEq, Repr

/-- `WORKFLOW_NODE_TYPES`. -/
def WorkflowNodeType.literal : WorkflowNodeType → String
  | .manualTrigger => "trigger.manual"
  | .transformAction => "action.transform"
  | .conditionAction => "action.condition"
  | .httpRequestAction => "action.httpRequest"
  | .aiPromptAction => "action.aiPrompt"

inductive TransformMode where
  | passthrough
  | pick
deriving DecidableEq, Repr

/-- `WORKFLOW_CONDITION_OPERATORS`. -/
inductive WorkflowConditionOperator where
  | exists
  | equals
  | notEquals
  | contains
  | greaterThan
  | lessThan
deriving DecidableEq, Repr

inductive ConditionValue where
  | string (s : String)
  | number (q : Rat)
  | boolean (b : Bool)
deriving DecidableEq, Repr

/-- `WORKFLOW_HTTP_METHODS`. -/
inductive WorkflowHttpMethod where
  | GET
  | POST
  | PUT
  | PATCH
  | DELETE
deriving DecidableEq, Repr

inductive HttpMode where
  | mock
  | real
deriving DecidableEq, Repr

structure Position where
  x : Rat
  y : Rat
deriving DecidableEq, Repr

structure TransformConfig where
  mode : TransformMode
  pick : Option { keys : List (BoundedString 1 120) // 1 ≤ keys.length ∧ keys.length ≤ 50 }
  pick_given : mode = .pick → pick.isSome

structure ConditionConfig where
  field : BoundedString 1 120
  operator : WorkflowConditionOperator
  value : Option ConditionValue
  trueLabel : BoundedString 1 80
  falseLabel : BoundedString 1 80
  value_given : operator ≠ .exists → value.isSome

structure HttpRequestConfig where
  mode : HttpMode
  method : WorkflowHttpMethod
  url : String
  headers : Option (List (String × String))
  body : Option Record
  timeoutMs : { n : Nat // 100 ≤ n ∧ n ≤ 30000 }

structure AiPromptConfig where
  prompt : BoundedString 1 2000
  systemPrompt : Option (BoundedString 1 2000)
  provider : BoundedString 1 80
  credentialId : Option (BoundedString 1 120)
  model : BoundedString 1 120
  temperature : { q : Rat // 0 ≤ q ∧ q ≤ 2 }

/-- The configuration of a node; its constructor is the node's `type`. -/
inductive WorkflowNodeConfig where
  | manualTrigger
  | transformAction (config : TransformConfig)
  | conditionAction (config : ConditionConfig)
  | httpRequestAction (config : HttpRequestConfig)
  | aiPromptAction (config : AiPromptConfig)

/-- What `workflowNodeSchema` returns. -/
structure WorkflowNode where
  nodeId : WorkflowNodeId
  name : WorkflowNodeName
  position : Option Position
  config : WorkflowNodeConfig

namespace WorkflowNode

/-- `node.id`. -/
def id (node : WorkflowNode) : String := node.nodeId.value

/-- `node.type`. -/
def type (node : WorkflowNode) : WorkflowNodeType :=
  match node.config with
  | .manualTrigger => .manualTrigger
  | .transformAction _ => .transformAction
  | .conditionAction _ => .conditionAction
  | .httpRequestAction _ => .httpRequestAction
  | .aiPromptAction _ => .aiPromptAction

end WorkflowNode

/-! ## Schemas of the configurations -/

open Schema

def positionSchema : Schema (Option Position) :=
  optional (strictObject ["x", "y"] fun fields =>
    Position.mk <$> field fields "x" number <*> field fields "y" number)

def manualTriggerConfigSchema : Schema Unit := strictObject [] fun _ => pure ()

def transformConfigSchema : Schema TransformConfig := fun v =>
  (strictObject ["mode", "pick"] (fun fields =>
      Prod.mk
        <$> field fields "mode" (enumOf [("passthrough", .passthrough), ("pick", .pick)])
        <*> field fields "pick" (optional (boundedArray (boundedString 1 120) 1 50))) v).andThen
    fun (mode, pick) =>
      if h : mode = TransformMode.pick → pick.isSome then .ok ⟨mode, pick, h⟩
      else (Parsed.fail .custom (some "pick mode requires a non-empty pick list")).at_ (.key "pick")

/-- `z.union([z.string(), z.number(), z.boolean()])`. -/
def conditionValueSchema : Schema ConditionValue
  | some (.str s) => .ok (.string s)
  | some (.num q) => .ok (.number q)
  | some (.bool b) => .ok (.boolean b)
  | _ => .fail .invalidUnion none

def conditionOperatorSchema : Schema WorkflowConditionOperator :=
  enumOf [("exists", .exists), ("equals", .equals), ("notEquals", .notEquals),
    ("contains", .contains), ("greaterThan", .greaterThan), ("lessThan", .lessThan)]

def conditionConfigSchema : Schema ConditionConfig := fun v =>
  (strictObject ["field", "operator", "value", "trueLabel", "falseLabel"] (fun fields =>
      (fun a b c d e => (a, b, c, d, e))
        <$> field fields "field" (boundedString 1 120)
        <*> field fields "operator" conditionOperatorSchema
        <*> field fields "value" (optional conditionValueSchema)
        <*> field fields "trueLabel"
          (default ⟨"matched", by decide⟩ (boundedString 1 80))
        <*> field fields "falseLabel"
          (default ⟨"not_matched", by decide⟩ (boundedString 1 80))) v).andThen
    fun (name, operator, value, trueLabel, falseLabel) =>
      if h : operator ≠ WorkflowConditionOperator.exists → value.isSome then
        .ok ⟨name, operator, value, trueLabel, falseLabel, h⟩
      else
        (Parsed.fail .custom (some "condition value is required for this operator")).at_
          (.key "value")

/-- `z.string().url()`. -/
def urlSchema [Runtime] : Schema String := fun v =>
  (string v).andThen fun s =>
    if Runtime.isUrl s then .ok s else .fail .invalidFormat none

def httpRequestConfigSchema [Runtime] : Schema HttpRequestConfig :=
  strictObject ["mode", "method", "url", "headers", "body", "timeoutMs"] fun fields =>
    HttpRequestConfig.mk
      <$> field fields "mode" (default .mock (enumOf [("mock", .mock), ("real", .real)]))
      <*> field fields "method"
        (enumOf [("GET", .GET), ("POST", .POST), ("PUT", .PUT), ("PATCH", .PATCH),
          ("DELETE", .DELETE)])
      <*> field fields "url" urlSchema
      <*> field fields "headers" (optional (record string))
      <*> field fields "body" (optional (record unknown))
      <*> field fields "timeoutMs" (default ⟨5000, by decide⟩ (boundedInt 100 30000))

def aiPromptConfigSchema : Schema AiPromptConfig :=
  strictObject ["prompt", "systemPrompt", "provider", "credentialId", "model", "temperature"]
    fun fields =>
      AiPromptConfig.mk
        <$> field fields "prompt" (boundedString 1 2000)
        <*> field fields "systemPrompt" (optional (boundedString 1 2000))
        <*> field fields "provider"
          (default ⟨"deterministic", by decide⟩ (boundedString 1 80))
        <*> field fields "credentialId" (optional (boundedString 1 120))
        <*> field fields "model"
          (default ⟨"mock-flowpilot-llm", by decide⟩ (boundedString 1 120))
        <*> field fields "temperature" (default ⟨1 / 5, by decide +kernel⟩ (boundedNumber 0 2))

/-! ## The node schema -/

/-- `workflowNodeBaseSchema.extend({ type, config }).strict()`, for the kind
whose configuration schema is given. -/
def nodeSchema (configSchema : Schema WorkflowNodeConfig) : Schema WorkflowNode :=
  strictObject ["id", "type", "name", "position", "config"] fun fields =>
    WorkflowNode.mk
      <$> field fields "id" workflowNodeIdSchema
      <*> field fields "name" workflowNodeNameSchema
      <*> field fields "position" positionSchema
      <*> field fields "config" configSchema

def manualTriggerNodeSchema : Schema WorkflowNode :=
  nodeSchema fun v => (manualTriggerConfigSchema v).map fun _ => .manualTrigger

def transformActionNodeSchema : Schema WorkflowNode :=
  nodeSchema fun v => (transformConfigSchema v).map .transformAction

def conditionActionNodeSchema : Schema WorkflowNode :=
  nodeSchema fun v => (conditionConfigSchema v).map .conditionAction

def httpRequestActionNodeSchema [Runtime] : Schema WorkflowNode :=
  nodeSchema fun v => (httpRequestConfigSchema v).map .httpRequestAction

def aiPromptActionNodeSchema : Schema WorkflowNode :=
  nodeSchema fun v => (aiPromptConfigSchema v).map .aiPromptAction

/-- The options of the union, by the literal of their `type`. -/
def workflowNodeSchemas [Runtime] : List (String × Schema WorkflowNode) :=
  [(WorkflowNodeType.manualTrigger.literal, manualTriggerNodeSchema),
    (WorkflowNodeType.transformAction.literal, transformActionNodeSchema),
    (WorkflowNodeType.conditionAction.literal, conditionActionNodeSchema),
    (WorkflowNodeType.httpRequestAction.literal, httpRequestActionNodeSchema),
    (WorkflowNodeType.aiPromptAction.literal, aiPromptActionNodeSchema)]

/-- `z.discriminatedUnion("type", [...])`. -/
def workflowNodeSchema [Runtime] : Schema WorkflowNode := fun v =>
  match v.bind (·.get? "type") with
  | some (.str type) =>
      match workflowNodeSchemas.lookup type with
      | some schema => schema v
      | none => (Parsed.fail .invalidUnion none).at_ (.key "type")
  | _ => (Parsed.fail .invalidUnion none).at_ (.key "type")

end FlowPilot
