import FlowPilot.Contracts.WorkflowDefinition
import FlowPilot.KeyOrder

/-!
# What a parsed definition is written as

The JSON value of what the schemas of `packages/contracts` return: defaults
filled in, optional fields that were not given left out. Read again, in any
order of keys, it is accepted and gives the same definition
(`workflowDefinitionSchema_toJson`), so that parsing is idempotent.

Most schemas read back exactly what was written (`Reads`). The two records
of an HTTP node come back in the order of the keys, so a node comes back with
the same content (`WorkflowNode.Same`), which the graph checks do not see.
-/

namespace FlowPilot

open Schema

/-! ## Values as JSON -/

def TransformMode.literal : TransformMode → String
  | .passthrough => "passthrough"
  | .pick => "pick"

def WorkflowConditionOperator.literal : WorkflowConditionOperator → String
  | .exists => "exists"
  | .equals => "equals"
  | .notEquals => "notEquals"
  | .contains => "contains"
  | .greaterThan => "greaterThan"
  | .lessThan => "lessThan"

def WorkflowHttpMethod.literal : WorkflowHttpMethod → String
  | .GET => "GET"
  | .POST => "POST"
  | .PUT => "PUT"
  | .PATCH => "PATCH"
  | .DELETE => "DELETE"

def HttpMode.literal : HttpMode → String
  | .mock => "mock"
  | .real => "real"

def BoundedString.toJson {lo hi : Nat} (s : BoundedString lo hi) : Json := .str s.val

def Position.toJson (position : Position) : Json :=
  .object [("x", some (.num position.x)), ("y", some (.num position.y))]

def ConditionValue.toJson : ConditionValue → Json
  | .string s => .str s
  | .number q => .num q
  | .boolean b => .bool b

def TransformConfig.toJson (config : TransformConfig) : Json :=
  .object [("mode", some (.str config.mode.literal)),
    ("pick", config.pick.map fun pick => .arr (pick.val.map BoundedString.toJson))]

def ConditionConfig.toJson (config : ConditionConfig) : Json :=
  .object [("field", some config.field.toJson), ("operator", some (.str config.operator.literal)),
    ("value", config.value.map ConditionValue.toJson), ("trueLabel", some config.trueLabel.toJson),
    ("falseLabel", some config.falseLabel.toJson)]

/-- `Record<string, string>`. -/
def headersToJson (headers : List (String × String)) : Json :=
  .obj (headers.map fun header => (header.1, .str header.2))

def HttpRequestConfig.toJson (config : HttpRequestConfig) : Json :=
  .object [("mode", some (.str config.mode.literal)),
    ("method", some (.str config.method.literal)), ("url", some (.str config.url)),
    ("headers", config.headers.map headersToJson), ("body", config.body.map .obj),
    ("timeoutMs", some (.num config.timeoutMs.val))]

def AiPromptConfig.toJson (config : AiPromptConfig) : Json :=
  .object [("prompt", some config.prompt.toJson),
    ("systemPrompt", config.systemPrompt.map BoundedString.toJson),
    ("provider", some config.provider.toJson),
    ("credentialId", config.credentialId.map BoundedString.toJson),
    ("model", some config.model.toJson), ("temperature", some (.num config.temperature.val))]

def WorkflowNodeConfig.toJson : WorkflowNodeConfig → Json
  | .manualTrigger => .object []
  | .transformAction config => config.toJson
  | .conditionAction config => config.toJson
  | .httpRequestAction config => config.toJson
  | .aiPromptAction config => config.toJson

def WorkflowNode.toJson (node : WorkflowNode) : Json :=
  .object [("id", some (.str node.id)), ("type", some (.str node.type.literal)),
    ("name", some node.name.toJson), ("position", node.position.map Position.toJson),
    ("config", some node.config.toJson)]

def WorkflowEdge.toJson (edge : WorkflowEdge) : Json :=
  .object [("id", some (.str edge.id)), ("sourceNodeId", some (.str edge.sourceNodeId)),
    ("targetNodeId", some (.str edge.targetNodeId))]

def WorkflowDefinition.toJson (definition : WorkflowDefinition) : Json :=
  .object [("nodes", some (.arr (definition.nodes.map WorkflowNode.toJson))),
    ("edges", some (.arr (definition.edges.map WorkflowEdge.toJson)))]

/-- The default is written as it stands in the source. -/
example : parsedDefaultWorkflowDefinition.toJson = defaultWorkflowDefinition := rfl

/-! ## Reading back -/

section

variable {α : Type} {s : Schema α} {write : α → Json} {a : α} {o : Option Json}

/-- The schema reads back what was written, in any order of keys. -/
def Reads (s : Schema α) (write : α → Json) : Prop :=
  ∀ a v, (write a).Same v → s (some v) = .ok a

theorem Reads.of_atom (hatom : ∀ a, (write a).IsAtom) (h : ∀ a, s (some (write a)) = .ok a) :
    Reads s write := by
  intro a v hsame
  rw [hsame.eq_of_atom (hatom a)]
  exact h a

theorem number_reads : Reads number Json.num := .of_atom (fun _ => trivial) fun _ => rfl

theorem boundedString_reads (lo hi : Nat) :
    Reads (boundedString lo hi) BoundedString.toJson :=
  .of_atom (fun _ => trivial) fun s => by
    simp only [boundedString, BoundedString.toJson, string, Parsed.andThen, s.property, dite_true]
    rfl

theorem workflowNodeIdSchema_reads : Reads workflowNodeIdSchema fun id => .str id.value :=
  .of_atom (fun _ => trivial) fun id => by
    have hbounded : boundedString 1 80 (some (.str id.value)) = .ok ⟨id.value, id.length⟩ :=
      boundedString_reads 1 80 ⟨id.value, id.length⟩ _ (.refl _)
    simp only [workflowNodeIdSchema, hbounded, Parsed.andThen, id.pattern, dite_true]

theorem boundedNumber_reads (lo hi : Rat) : Reads (boundedNumber lo hi) fun q => .num q.val :=
  .of_atom (fun _ => trivial) fun q => by
    simp [boundedNumber, number, Parsed.andThen, q.property]

theorem boundedInt_reads (lo hi : Nat) : Reads (boundedInt lo hi) fun n => .num n.val :=
  .of_atom (fun _ => trivial) fun n => by
    simp only [boundedInt, number, Parsed.andThen, Rat.den_natCast, Rat.num_natCast,
      Int.toNat_natCast, n.property, if_true, and_self, dite_true, Int.natCast_nonneg]

theorem enumOf_reads {values : List (String × α)} {literal : α → String}
    (h : ∀ a, values.lookup (literal a) = some a) :
    Reads (enumOf values) fun a => .str (literal a) :=
  .of_atom (fun _ => trivial) fun a => by
    simp [enumOf, h]

theorem conditionValueSchema_reads : Reads conditionValueSchema ConditionValue.toJson :=
  .of_atom (fun value => by cases value <;> trivial) fun value => by
    cases value <;> rfl

/-! ### Arrays and objects -/

/-- The fields of an object, one after the other. -/
theorem Parsed.map_ok {β : Type} {f : α → β} {x : Parsed α} (h : x = .ok a) :
    f <$> x = .ok (f a) := by
  rw [h]
  rfl

theorem Parsed.seq_ok {β : Type} {f : α → β} {p : Parsed (α → β)} {x : Parsed α}
    (hp : p = .ok f) (hx : x = .ok a) : p <*> x = .ok (f a) := by
  rw [hp, hx]
  rfl

theorem elements_reads (hs : Reads s write) : ∀ {items : List α} {vs : List Json} {i : Nat},
    List.Forall₂ Json.Same (items.map write) vs → elements s i vs = .ok items
  | [], [], _, .nil => rfl
  | a :: items, v :: vs, i, .cons hv hvs => by
      rw [elements, hs a v hv, elements_reads hs hvs]
      rfl

theorem boundedArray_reads {lo hi : Nat} (hs : Reads s write) :
    Reads (boundedArray s lo hi) fun items => .arr (items.val.map write) := by
  intro items v hsame
  obtain ⟨vs, rfl, hvs⟩ := hsame.of_arr rfl
  simp only [boundedArray, elements_reads hs hvs, Parsed.andThen, items.property, dite_true]

section

variable {fields : Record} {k : String}

theorem Reads.some (hs : Reads s write) (h : Option.Rel Json.Same (some (write a)) o) :
    s o = .ok a := by
  cases h with
  | some hv => exact hs a _ hv

theorem Reads.optional (hs : Reads s write) {a : Option α}
    (h : Option.Rel Json.Same (a.map write) o) : Schema.optional s o = .ok a := by
  cases a with
  | none =>
      cases h
      rfl
  | some a =>
      cases h with
      | some hv => rw [Schema.optional, hs a _ hv]; rfl

/-- A field that was written is not filled in. -/
theorem Reads.default (hs : Reads s write) (d : α) : Reads (Schema.default d s) write := hs

theorem field_eq_ok (h : s (fields.lookup k) = .ok a) : field fields k s = .ok a := by
  rw [field, h]
  rfl

end

/-- The fields of a value with the content of an object, found by their
keys. -/
theorem strictObject_fields {entries : List (String × Option Json)} {keys : List String} {v : Json}
    (hsame : (Json.object entries).Same v) (hkeys : entries.map (·.1) = keys)
    (hnodup : keys.Nodup) : ∃ fields : Record,
      (∀ entry ∈ entries, Option.Rel Json.Same entry.2 (fields.lookup entry.1))
        ∧ v = .obj fields ∧ noOtherKeys fields keys = .ok () := by
  subst hkeys
  obtain ⟨fields, rfl, hfields, hlookup⟩ := hsame.of_object hnodup
  refine ⟨fields, fun entry hentry => hlookup _ _ hentry, rfl, ?_⟩
  refine if_pos (List.all_eq_true.mpr fun entry hentry => ?_)
  exact List.contains_iff_mem.mpr (hfields _ (List.mem_map_of_mem hentry))

theorem strictObject_ok {fields : Record} {keys : List String} {body : Record → Parsed α}
    (hkeys : noOtherKeys fields keys = .ok ()) (hbody : body fields = .ok a) :
    strictObject keys body (some (.obj fields)) = .ok a := by
  rw [strictObject, hbody, hkeys]
  rfl

/-- What a strict object reads back. -/
theorem strictObject_reads {entries : List (String × Option Json)} {keys : List String}
    {body : Record → Parsed α} {v : Json} (hsame : (Json.object entries).Same v)
    (hkeys : entries.map (·.1) = keys) (hnodup : keys.Nodup)
    (hbody : ∀ fields : Record, (∀ entry ∈ entries,
      Option.Rel Json.Same entry.2 (fields.lookup entry.1)) → body fields = .ok a) :
    strictObject keys body (some v) = .ok a := by
  obtain ⟨fields, hfields, rfl, hother⟩ := strictObject_fields hsame hkeys hnodup
  exact strictObject_ok hother (hbody fields hfields)

theorem positionObject_reads :
    Reads (strictObject ["x", "y"] fun fields =>
      Position.mk <$> field fields "x" number <*> field fields "y" number) Position.toJson := by
  intro position v hsame
  refine strictObject_reads hsame rfl (by decide) fun fields hfields => ?_
  simp only [List.forall_mem_cons] at hfields
  obtain ⟨hx, hy, -⟩ := hfields
  exact Parsed.seq_ok (Parsed.map_ok (field_eq_ok (number_reads.some hx)))
    (field_eq_ok (number_reads.some hy))

theorem workflowEdgeSchema_reads : Reads workflowEdgeSchema WorkflowEdge.toJson := by
  intro edge v hsame
  refine strictObject_reads hsame rfl (by decide) fun fields hfields => ?_
  simp only [List.forall_mem_cons] at hfields
  obtain ⟨hid, hsource, htarget, -⟩ := hfields
  have hnodeId := workflowNodeIdSchema_reads
  exact Parsed.seq_ok (Parsed.seq_ok (Parsed.map_ok (field_eq_ok (hnodeId.some hid)))
    (field_eq_ok (hnodeId.some hsource))) (field_eq_ok (hnodeId.some htarget))

/-! ### Configurations -/

theorem transformMode_reads :
    Reads (enumOf [("passthrough", .passthrough), ("pick", .pick)])
      fun mode : TransformMode => .str mode.literal :=
  enumOf_reads fun mode => by cases mode <;> rfl

theorem conditionOperatorSchema_reads :
    Reads conditionOperatorSchema fun operator => .str operator.literal :=
  enumOf_reads fun operator => by cases operator <;> rfl

theorem transformConfigSchema_reads : Reads transformConfigSchema TransformConfig.toJson := by
  intro config v hsame
  refine Parsed.andThen_eq_ok.mpr ⟨(config.mode, config.pick),
    strictObject_reads hsame rfl (by decide) fun fields hfields => ?_, dif_pos config.pick_given⟩
  simp only [List.forall_mem_cons] at hfields
  obtain ⟨hmode, hpick, -⟩ := hfields
  exact Parsed.seq_ok (Parsed.map_ok (field_eq_ok (transformMode_reads.some hmode)))
    (field_eq_ok ((boundedArray_reads (boundedString_reads 1 120)).optional hpick))

theorem conditionConfigSchema_reads : Reads conditionConfigSchema ConditionConfig.toJson := by
  intro config v hsame
  refine Parsed.andThen_eq_ok.mpr ⟨(config.field, config.operator, config.value,
    config.trueLabel, config.falseLabel),
    strictObject_reads hsame rfl (by decide) fun fields hfields => ?_, dif_pos config.value_given⟩
  simp only [List.forall_mem_cons] at hfields
  obtain ⟨hfield, hoperator, hvalue, htrue, hfalse, -⟩ := hfields
  have hlabel := boundedString_reads 1 80
  exact Parsed.seq_ok (Parsed.seq_ok (Parsed.seq_ok (Parsed.seq_ok
    (Parsed.map_ok (field_eq_ok ((boundedString_reads 1 120).some hfield)))
    (field_eq_ok (conditionOperatorSchema_reads.some hoperator)))
    (field_eq_ok (conditionValueSchema_reads.optional hvalue)))
    (field_eq_ok ((hlabel.default _).some htrue))) (field_eq_ok ((hlabel.default _).some hfalse))

theorem aiPromptConfigSchema_reads : Reads aiPromptConfigSchema AiPromptConfig.toJson := by
  intro config v hsame
  refine strictObject_reads hsame rfl (by decide) fun fields hfields => ?_
  simp only [List.forall_mem_cons] at hfields
  obtain ⟨hprompt, hsystem, hprovider, hcredential, hmodel, htemperature, -⟩ := hfields
  exact Parsed.seq_ok (Parsed.seq_ok (Parsed.seq_ok (Parsed.seq_ok (Parsed.seq_ok
    (Parsed.map_ok (field_eq_ok ((boundedString_reads 1 2000).some hprompt)))
    (field_eq_ok ((boundedString_reads 1 2000).optional hsystem)))
    (field_eq_ok (((boundedString_reads 1 80).default _).some hprovider)))
    (field_eq_ok ((boundedString_reads 1 120).optional hcredential)))
    (field_eq_ok (((boundedString_reads 1 120).default _).some hmodel)))
    (field_eq_ok (((boundedNumber_reads 0 2).default _).some htemperature))

/-! ### Records -/

theorem values_string : ∀ {fields : Record}, (∀ entry ∈ fields, ∃ s, entry.2 = .str s) →
    ∃ headers, values string fields = .ok headers ∧ headersToJson headers = .obj fields
  | [], _ => ⟨[], rfl, rfl⟩
  | (k, v) :: fields, h => by
      obtain ⟨⟨s, rfl⟩, hrest⟩ := List.forall_mem_cons.mp h
      obtain ⟨headers, hheaders, hwritten⟩ := values_string hrest
      exact ⟨(k, s) :: headers, Parsed.seq_ok (Parsed.map_ok rfl) hheaders,
        congrArg (fun fields => Json.obj ((k, .str s) :: fields)) (Json.obj.inj hwritten)⟩

theorem values_unknown : ∀ fields : Record, values unknown fields = .ok fields
  | [] => rfl
  | (_, _) :: fields => Parsed.seq_ok (Parsed.map_ok rfl) (values_unknown fields)

/-- The schema reads back the content of what was written. -/
def ReadsSame (s : Schema α) (write : α → Json) : Prop :=
  ∀ a v, (write a).Same v → ∃ a', s (some v) = .ok a' ∧ (write a).Same (write a')

theorem ReadsSame.optional (hs : ReadsSame s write) {a : Option α}
    (h : Option.Rel Json.Same (a.map write) o) : ∃ a', Schema.optional s o = .ok a'
      ∧ Option.Rel Json.Same (a.map write) (a'.map write) := by
  cases a with
  | none =>
      cases h
      exact ⟨none, rfl, .none⟩
  | some a =>
      cases h with
      | some hv =>
          obtain ⟨a', ha', hsame⟩ := hs a _ hv
          exact ⟨some a', by rw [Schema.optional, ha']; rfl, .some hsame⟩

theorem headers_reads : ReadsSame (record string) headersToJson := by
  intro headers v hsame
  obtain ⟨fields, rfl, hfields⟩ := hsame.of_obj rfl
  obtain ⟨headers', hheaders, hwritten⟩ := @values_string fields fun entry hentry => by
    obtain ⟨entry', hentry', -, hsame'⟩ := hfields.values entry hentry
    obtain ⟨header, -, rfl⟩ := List.mem_map.mp hentry'
    exact ⟨header.2, hsame'.eq_of_atom trivial⟩
  exact ⟨headers', hheaders, hwritten ▸ hsame⟩

theorem body_reads : ReadsSame (record unknown) Json.obj := by
  intro body v hsame
  obtain ⟨fields, rfl, -⟩ := hsame.of_obj rfl
  exact ⟨fields, values_unknown fields, hsame⟩

end

/-! ### Nodes -/

section

variable [Runtime]

theorem urlSchema_reads {url o} (hurl : Runtime.isUrl url = true)
    (h : Option.Rel Json.Same (some (.str url)) o) : urlSchema o = .ok url := by
  cases h with
  | some hv =>
      rw [hv.eq_of_atom trivial]
      simp [urlSchema, string, Parsed.andThen, hurl]

/-- The platform accepts the URL. -/
def WorkflowNodeConfig.UrlAccepted : WorkflowNodeConfig → Prop
  | .httpRequestAction config => Runtime.isUrl config.url = true
  | _ => True

omit [Runtime] in
theorem sameEntry_refl (entry : String × Option Json) :
    entry.1 = entry.1 ∧ Option.Rel Json.Same entry.2 entry.2 := by
  obtain ⟨k, o⟩ := entry
  cases o with
  | none => exact ⟨rfl, .none⟩
  | some v => exact ⟨rfl, .some (.refl v)⟩

theorem httpRequestConfigSchema_reads {config : HttpRequestConfig} {v : Json}
    (hurl : Runtime.isUrl config.url = true) (hsame : config.toJson.Same v) :
    ∃ config', httpRequestConfigSchema (some v) = .ok config'
      ∧ config.toJson.Same config'.toJson := by
  obtain ⟨fields, hfields, rfl, hother⟩ := strictObject_fields hsame rfl (by simp)
  simp only [List.forall_mem_cons] at hfields
  obtain ⟨hmode, hmethod, hurlField, hheaders, hbody, htimeout, -⟩ := hfields
  obtain ⟨headers', hheaders', hsameHeaders⟩ := headers_reads.optional hheaders
  obtain ⟨body', hbody', hsameBody⟩ := body_reads.optional hbody
  have hmodeReads : Reads (enumOf [("mock", .mock), ("real", .real)])
      fun mode : HttpMode => .str mode.literal := enumOf_reads fun mode => by cases mode <;> rfl
  have hmethodReads : Reads (enumOf [("GET", .GET), ("POST", .POST), ("PUT", .PUT),
      ("PATCH", .PATCH), ("DELETE", .DELETE)]) fun method : WorkflowHttpMethod =>
      .str method.literal := enumOf_reads fun method => by cases method <;> rfl
  refine ⟨{ config with headers := headers', body := body' }, strictObject_ok hother ?_, ?_⟩
  · exact Parsed.seq_ok (Parsed.seq_ok (Parsed.seq_ok (Parsed.seq_ok (Parsed.seq_ok
      (Parsed.map_ok (field_eq_ok ((hmodeReads.default _).some hmode)))
      (field_eq_ok (hmethodReads.some hmethod))) (field_eq_ok (urlSchema_reads hurl hurlField)))
      (field_eq_ok hheaders')) (field_eq_ok hbody'))
      (field_eq_ok (((boundedInt_reads 100 30000).default _).some htimeout))
  · have hkept := sameEntry_refl
    exact Json.Same.object (.cons (hkept _) (.cons (hkept _) (.cons (hkept _)
      (.cons ⟨rfl, hsameHeaders⟩ (.cons ⟨rfl, hsameBody⟩ (.cons (hkept _) .nil))))))

/-- A node with the same content: only the records of its configuration may
have their keys in another order. -/
structure WorkflowNode.Same (node node' : WorkflowNode) : Prop where
  id : node'.id = node.id
  type : node'.type = node.type
  toJson : node.toJson.Same node'.toJson

omit [Runtime] in
/-- A node reads back when its configuration does. -/
theorem nodeSchema_reads {configSchema : Schema WorkflowNodeConfig} {node : WorkflowNode} {v : Json}
    (hsame : node.toJson.Same v)
    (hconfig : ∀ w, node.config.toJson.Same w → ∃ config', configSchema (some w) = .ok config'
      ∧ node.config.toJson.Same config'.toJson
      ∧ ({ node with config := config' } : WorkflowNode).type = node.type) :
    ∃ node', nodeSchema configSchema (some v) = .ok node' ∧ node.Same node' := by
  obtain ⟨fields, hfields, rfl, hother⟩ := strictObject_fields hsame rfl (by simp)
  simp only [List.forall_mem_cons] at hfields
  obtain ⟨hid, -, hname, hposition, hconfigField, -⟩ := hfields
  obtain ⟨w, hlookup, hw⟩ : ∃ w, fields.lookup "config" = some w ∧ node.config.toJson.Same w := by
    generalize fields.lookup "config" = o at hconfigField
    cases hconfigField with
    | some hw => exact ⟨_, rfl, hw⟩
  obtain ⟨config', hconfig', hsameConfig, htype⟩ := hconfig w hw
  refine ⟨{ node with config := config' }, strictObject_ok hother ?_, rfl, htype, ?_⟩
  · exact Parsed.seq_ok (Parsed.seq_ok (Parsed.seq_ok
      (Parsed.map_ok (field_eq_ok (workflowNodeIdSchema_reads.some hid)))
      (field_eq_ok ((boundedString_reads 1 120).some hname)))
      (field_eq_ok (positionObject_reads.optional hposition)))
      (field_eq_ok (hlookup ▸ hconfig'))
  · have hkept := sameEntry_refl
    refine Json.Same.object (.cons (hkept _) (.cons ⟨rfl, ?_⟩ (.cons (hkept _)
      (.cons (hkept _) (.cons ⟨rfl, .some hsameConfig⟩ .nil)))))
    rw [htype]
    exact .some (.refl _)

omit [Runtime] in
/-- A configuration that reads back exactly. -/
theorem nodeSchema_reads_exact {configSchema : Schema WorkflowNodeConfig} {node : WorkflowNode}
    {v : Json} (hsame : node.toJson.Same v)
    (hconfig : ∀ w, node.config.toJson.Same w → configSchema (some w) = .ok node.config) :
    ∃ node', nodeSchema configSchema (some v) = .ok node' ∧ node.Same node' :=
  nodeSchema_reads hsame fun w hw => ⟨node.config, hconfig w hw, .refl _, rfl⟩

theorem workflowNodeSchema_reads {node : WorkflowNode} {v : Json}
    (hurl : node.config.UrlAccepted) (hsame : node.toJson.Same v) :
    ∃ node', workflowNodeSchema (some v) = .ok node' ∧ node.Same node' := by
  have htype : v.get? "type" = some (.str node.type.literal) := by
    obtain ⟨fields, hfields, rfl, -⟩ := strictObject_fields hsame rfl (by simp)
    simp only [List.forall_mem_cons] at hfields
    obtain ⟨-, htype, -⟩ := hfields
    show fields.lookup "type" = _
    generalize fields.lookup "type" = o at htype
    cases htype with
    | some h => rw [h.eq_of_atom trivial]
  simp only [workflowNodeSchema, Option.bind_some, htype]
  obtain ⟨nodeId, name, position, config⟩ := node
  cases config with
  | manualTrigger =>
      refine nodeSchema_reads_exact hsame fun w hw => ?_
      have hempty : manualTriggerConfigSchema (some w) = .ok () :=
        strictObject_reads hw rfl List.nodup_nil fun _ _ => rfl
      rw [hempty]
      rfl
  | transformAction config =>
      refine nodeSchema_reads_exact hsame fun w hw => ?_
      rw [transformConfigSchema_reads config w hw]
      rfl
  | conditionAction config =>
      refine nodeSchema_reads_exact hsame fun w hw => ?_
      rw [conditionConfigSchema_reads config w hw]
      rfl
  | httpRequestAction config =>
      refine nodeSchema_reads hsame fun w hw => ?_
      obtain ⟨config', hconfig', hsame'⟩ := httpRequestConfigSchema_reads hurl hw
      exact ⟨.httpRequestAction config', by rw [hconfig']; rfl, hsame', rfl⟩
  | aiPromptAction config =>
      refine nodeSchema_reads_exact hsame fun w hw => ?_
      rw [aiPromptConfigSchema_reads config w hw]
      rfl

/-! ### Definitions -/

theorem nodes_reads : ∀ {nodes : List WorkflowNode} {vs : List Json} {i : Nat},
    (∀ node ∈ nodes, node.config.UrlAccepted) →
    List.Forall₂ Json.Same (nodes.map WorkflowNode.toJson) vs →
    ∃ nodes', elements workflowNodeSchema i vs = .ok nodes'
      ∧ List.Forall₂ WorkflowNode.Same nodes nodes'
  | [], [], _, _, .nil => ⟨[], rfl, .nil⟩
  | node :: nodes, v :: vs, i, hurls, .cons hv hvs => by
      obtain ⟨hurl, hrest⟩ := List.forall_mem_cons.mp hurls
      obtain ⟨node', hnode', hsame⟩ := workflowNodeSchema_reads hurl hv
      obtain ⟨nodes', hnodes', hall⟩ := nodes_reads hrest hvs
      exact ⟨node' :: nodes', Parsed.seq_ok (Parsed.map_ok (by rw [hnode']; rfl)) hnodes',
        .cons hsame hall⟩

/-- A definition with the same content: its nodes are, and its edges are the
same. -/
structure WorkflowDefinition.Same (definition definition' : WorkflowDefinition) : Prop where
  nodes : List.Forall₂ WorkflowNode.Same definition.nodes definition'.nodes
  edges : definition'.edges = definition.edges

omit [Runtime] in
theorem WorkflowDefinition.Same.toJson {definition definition' : WorkflowDefinition}
    (h : definition.Same definition') : definition.toJson.Same definition'.toJson := by
  have hnodes : List.Forall₂ Json.Same (definition.nodes.map WorkflowNode.toJson)
      (definition'.nodes.map WorkflowNode.toJson) :=
    List.forall₂_map_left_iff.mpr
      (List.forall₂_map_right_iff.mpr (h.nodes.imp fun _ _ h => h.toJson))
  refine Json.Same.object (.cons ⟨rfl, .some (.arr hnodes)⟩ (.cons ⟨rfl, ?_⟩ .nil))
  rw [h.edges]
  exact .some (.refl _)

theorem workflowDefinitionObjectSchema_reads {definition : WorkflowDefinition} {v : Json}
    (hurls : ∀ node ∈ definition.nodes, node.config.UrlAccepted)
    (hsame : definition.toJson.Same v) :
    ∃ definition', workflowDefinitionObjectSchema (some v) = .ok definition'
      ∧ definition.Same definition' := by
  obtain ⟨fields, hfields, rfl, hother⟩ := strictObject_fields hsame rfl (by simp)
  simp only [List.forall_mem_cons] at hfields
  obtain ⟨hnodes, hedges, -⟩ := hfields
  obtain ⟨vs, hlookup, hvs⟩ : ∃ vs, fields.lookup "nodes" = some (.arr vs)
      ∧ List.Forall₂ Json.Same (definition.nodes.map WorkflowNode.toJson) vs := by
    generalize fields.lookup "nodes" = o at hnodes
    cases hnodes with
    | some h =>
        obtain ⟨vs, rfl, hvs⟩ := h.of_arr rfl
        exact ⟨vs, rfl, hvs⟩
  obtain ⟨nodes', hnodes', hall⟩ := nodes_reads (i := 0) hurls hvs
  have hlength : 1 ≤ nodes'.length ∧ nodes'.length ≤ 100 :=
    hall.length_eq ▸ definition.nodes_length
  refine ⟨⟨nodes', definition.edges, hlength, definition.edges_length⟩,
    strictObject_ok hother ?_, hall, rfl⟩
  have hnodesField : field fields "nodes" (boundedArray workflowNodeSchema 1 100)
      = .ok ⟨nodes', hlength⟩ := by
    refine field_eq_ok ?_
    simp only [hlookup, boundedArray, hnodes', Parsed.andThen, hlength, dite_true]
  have hedgesField : field fields "edges" (boundedArray workflowEdgeSchema 0 200)
      = .ok ⟨definition.edges, Nat.zero_le _, definition.edges_length⟩ :=
    field_eq_ok ((boundedArray_reads workflowEdgeSchema_reads).some hedges)
  exact Parsed.seq_ok (Parsed.map_ok hnodesField) hedgesField

end

/-! ## What the schemas ensure -/

section

variable {α β : Type} {s : Schema α} {P : α → Prop}

/-- What the schema returns meets `P`. -/
def Ensures (s : Schema α) (P : α → Prop) : Prop := ∀ o a, s o = .ok a → P a

theorem Parsed.map_eq_ok {f : α → β} {x : Parsed α} {b : β} (h : f <$> x = .ok b) :
    ∃ a, x = .ok a ∧ f a = b := by
  cases x with
  | ok a => exact ⟨a, rfl, Parsed.ok.inj h⟩
  | issues found => cases h

theorem Parsed.seq_eq_ok {p : Parsed (α → β)} {x : Parsed α} {b : β} (h : p <*> x = .ok b) :
    ∃ f a, p = .ok f ∧ x = .ok a ∧ f a = b := by
  cases p <;> cases x <;> cases h
  exact ⟨_, _, rfl, rfl, rfl⟩

theorem Parsed.at_eq_ok {x : Parsed α} {segment : PathSegment} {a : α}
    (h : x.at_ segment = .ok a) : x = .ok a := by
  cases x with
  | ok a => exact h
  | issues found => cases h

theorem strictObject_ensures {keys : List String} {body : Record → Parsed α}
    (h : ∀ fields a, body fields = .ok a → P a) : Ensures (strictObject keys body) P := by
  intro o a ha
  unfold strictObject at ha
  split at ha
  · obtain ⟨f, _, hmap, -, heq⟩ := Parsed.seq_eq_ok ha
    obtain ⟨b, hbody, rfl⟩ := Parsed.map_eq_ok hmap
    exact heq ▸ h _ b hbody
  · cases ha

theorem elements_ensures (hs : Ensures s P) : ∀ {vs : List Json} {i : Nat} {items : List α},
    elements s i vs = .ok items → ∀ a ∈ items, P a
  | [], _, _, h => by
      cases h
      simp
  | v :: vs, i, _, h => by
      obtain ⟨_, items, hcons, hrest, rfl⟩ := Parsed.seq_eq_ok h
      obtain ⟨a, ha, rfl⟩ := Parsed.map_eq_ok hcons
      exact List.forall_mem_cons.mpr ⟨hs _ a (Parsed.at_eq_ok ha), elements_ensures hs hrest⟩

theorem boundedArray_ensures {lo hi : Nat} (hs : Ensures s P) :
    Ensures (boundedArray s lo hi) fun items => ∀ a ∈ items.val, P a := by
  intro o items h
  unfold boundedArray at h
  split at h
  · obtain ⟨list, hlist, h⟩ := Parsed.andThen_eq_ok.mp h
    split at h
    · split at h
      · cases h
        exact elements_ensures hs hlist
      · cases h
    · cases h
  · cases h

theorem nodeSchema_ensures {configSchema : Schema WorkflowNodeConfig}
    {P : WorkflowNodeConfig → Prop} (hs : Ensures configSchema P) :
    Ensures (nodeSchema configSchema) fun node => P node.config := by
  refine strictObject_ensures fun fields node h => ?_
  obtain ⟨f₁, config, h₁, hconfig, rfl⟩ := Parsed.seq_eq_ok h
  obtain ⟨f₂, position, h₂, -, rfl⟩ := Parsed.seq_eq_ok h₁
  obtain ⟨f₃, name, h₃, -, rfl⟩ := Parsed.seq_eq_ok h₂
  obtain ⟨id, -, rfl⟩ := Parsed.map_eq_ok h₃
  exact hs _ config (Parsed.at_eq_ok hconfig)

/-- The configuration of a kind without a URL. -/
theorem map_ensures {f : α → β} {Q : β → Prop} (hs : Ensures s P) (h : ∀ a, P a → Q (f a)) :
    Ensures (fun o => (s o).map f) Q := by
  intro o b hb
  change (s o).map f = .ok b at hb
  cases hparsed : s o with
  | issues found =>
      rw [hparsed] at hb
      cases hb
  | ok a =>
      rw [hparsed] at hb
      cases hb
      exact h a (hs o a hparsed)

end

section

variable [Runtime]

theorem urlSchema_ensures : Ensures urlSchema fun url => Runtime.isUrl url = true := by
  intro o url h
  obtain ⟨a, -, h⟩ := Parsed.andThen_eq_ok.mp h
  split at h
  · rename_i hurl
    cases h
    exact hurl
  · cases h

theorem httpRequestConfigSchema_ensures :
    Ensures httpRequestConfigSchema fun config => Runtime.isUrl config.url = true := by
  refine strictObject_ensures fun fields config h => ?_
  obtain ⟨f₁, timeoutMs, h₁, -, rfl⟩ := Parsed.seq_eq_ok h
  obtain ⟨f₂, body, h₂, -, rfl⟩ := Parsed.seq_eq_ok h₁
  obtain ⟨f₃, headers, h₃, -, rfl⟩ := Parsed.seq_eq_ok h₂
  obtain ⟨f₄, url, h₄, hurl, rfl⟩ := Parsed.seq_eq_ok h₃
  obtain ⟨f₅, method, h₅, -, rfl⟩ := Parsed.seq_eq_ok h₄
  obtain ⟨mode, -, rfl⟩ := Parsed.map_eq_ok h₅
  exact urlSchema_ensures _ url (Parsed.at_eq_ok hurl)

theorem workflowNodeSchema_ensures :
    Ensures workflowNodeSchema fun node => node.config.UrlAccepted := by
  have hother : ∀ {α : Type} {s : Schema α} {f : α → WorkflowNodeConfig},
      (∀ a, (f a).UrlAccepted) → Ensures (fun o => (s o).map f) WorkflowNodeConfig.UrlAccepted :=
    fun hf => map_ensures (P := fun _ => True) (fun _ _ _ => trivial) fun a _ => hf a
  have hschemas : ∀ entry ∈ workflowNodeSchemas,
      Ensures entry.2 fun node => node.config.UrlAccepted := by
    simp only [workflowNodeSchemas, List.forall_mem_cons]
    refine ⟨nodeSchema_ensures (hother fun _ => trivial),
      nodeSchema_ensures (hother fun _ => trivial), nodeSchema_ensures (hother fun _ => trivial),
      nodeSchema_ensures (map_ensures httpRequestConfigSchema_ensures fun _ h => h),
      nodeSchema_ensures (hother fun _ => trivial), by simp⟩
  intro o node h
  unfold workflowNodeSchema at h
  split at h
  · split at h
    · rename_i schema hschema
      exact hschemas _ (mem_of_lookup hschema) o node h
    · cases h
  · cases h

theorem workflowDefinitionObjectSchema_ensures :
    Ensures workflowDefinitionObjectSchema fun definition =>
      ∀ node ∈ definition.nodes, node.config.UrlAccepted := by
  refine strictObject_ensures fun fields definition h => ?_
  obtain ⟨f, edges, hf, -, rfl⟩ := Parsed.seq_eq_ok h
  obtain ⟨nodes, hnodes, rfl⟩ := Parsed.map_eq_ok hf
  exact boundedArray_ensures workflowNodeSchema_ensures _ nodes (Parsed.at_eq_ok hnodes)

/-! ## The graph checks -/

omit [Runtime] in
theorem scanNodes_same {nodes nodes' : List WorkflowNode}
    (h : List.Forall₂ WorkflowNode.Same nodes nodes') : scanNodes nodes' = scanNodes nodes := by
  have hfold : ∀ {i : Nat} {scan : NodeScan},
      (nodes'.zipIdx i).foldl scanNode scan = (nodes.zipIdx i).foldl scanNode scan := by
    induction h with
    | nil => exact rfl
    | @cons node node' nodes nodes' hnode _ ih =>
        intro i scan
        have hstep : scanNode scan (node', i) = scanNode scan (node, i) := by
          simp only [scanNode, hnode.id, hnode.type]
        simp only [List.zipIdx_cons, List.foldl_cons, hstep, ih]
  exact hfold

omit [Runtime] in
/-- The graph checks see the ids, the kinds and the edges. -/
theorem superRefine_same {definition definition' : WorkflowDefinition}
    (h : definition.Same definition') : superRefine definition' = superRefine definition := by
  have hids : definition'.nodes.map (·.id) = definition.nodes.map (·.id) := by
    have hnodes := h.nodes
    generalize definition.nodes = nodes at hnodes
    generalize definition'.nodes = nodes' at hnodes
    induction hnodes with
    | nil => rfl
    | cons hnode _ ih => simp [hnode.id, ih]
  simp only [superRefine, scanNodes_same h.nodes, hids, h.edges]

/-- **Parsing is idempotent.** What was accepted once is accepted again as it
is written, in any order of keys, and gives the same definition. -/
theorem workflowDefinitionSchema_toJson {o : Option Json} {definition : WorkflowDefinition}
    {v : Json} (haccept : workflowDefinitionSchema o = .ok definition)
    (hsame : definition.toJson.Same v) :
    ∃ definition', workflowDefinitionSchema (some v) = .ok definition'
      ∧ definition.Same definition' := by
  obtain ⟨hobject, hrefine⟩ := workflowDefinitionSchema_eq_ok.mp haccept
  obtain ⟨definition', hobject', hsame'⟩ := workflowDefinitionObjectSchema_reads
    (workflowDefinitionObjectSchema_ensures o definition hobject) hsame
  exact ⟨definition', workflowDefinitionSchema_eq_ok.mpr
    ⟨hobject', (superRefine_same hsame').trans hrefine⟩, hsame'⟩

end

end FlowPilot
