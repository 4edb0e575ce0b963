import FlowPilot.Contracts.Encoding
import FlowPilot.Lib.JsNumber
import FlowPilot.Worker.Messages

/-!
# The condition node

`executeConditionActionNode`: the value at a path of the input, compared by
one of six operators, decides the route.

The path is walked by `currentValue[segment]`, which also finds what an object
inherits. `exists` therefore says what the payload holds on exactly the paths
that do not end in a name of `Object.prototype`
(`executeConditionActionNode_exists_iff`). The comparisons convert both
sides, each in its own way; an absent field matches where it converts to the
configured value or to a number beyond it (`absent_never_matches_iff`).
-/

namespace FlowPilot

/-! ## Values -/

/-- What a path can come upon: payload, `Object.prototype` and the functions
that it holds. -/
inductive JsValue where
  | json (value : Json)
  | objectPrototype
  | function (name : String)
deriving DecidableEq

/-- The functions of `Object.prototype`, by key, with their names. -/
def objectPrototypeFunctions : List (String × String) :=
  [("constructor", "Object"), ("__defineGetter__", "__defineGetter__"),
    ("__defineSetter__", "__defineSetter__"), ("hasOwnProperty", "hasOwnProperty"),
    ("__lookupGetter__", "__lookupGetter__"), ("__lookupSetter__", "__lookupSetter__"),
    ("isPrototypeOf", "isPrototypeOf"), ("propertyIsEnumerable", "propertyIsEnumerable"),
    ("toString", "toString"), ("valueOf", "valueOf"), ("toLocaleString", "toLocaleString")]

namespace JsValue

/-- `typeof value === "object" && value !== null && !Array.isArray(value)`. -/
def isRecord : JsValue → Bool
  | .json value => value.isRecord
  | .objectPrototype => true
  | .function _ => false

/-- What an object gets from `Object.prototype`; `__proto__` gives that object
itself. -/
def inherited (key : String) : Option JsValue :=
  if key = "__proto__" then some .objectPrototype
  else (objectPrototypeFunctions.lookup key).map .function

/-- `value[key]`, of a value that `isRecord`: own properties first. The
prototype of `Object.prototype` is `null`. -/
def get : JsValue → String → Option JsValue
  | .json (.obj fields), key =>
      match fields.lookup key with
      | some value => some (.json value)
      | none => inherited key
  | .objectPrototype, key =>
      if key = "__proto__" then some (.json .null)
      else (objectPrototypeFunctions.lookup key).map .function
  | _, _ => none

end JsValue

/-! ## Conversions -/

/-- The `TypeError` of a conversion that finds no primitive value. -/
def cannotConvert : JsError := .error "Cannot convert object to primitive value"

mutual

/-- `String(value)`. An own `toString` of a payload is no function, and
`Object.prototype.valueOf` gives no primitive value. -/
def jsonToString : Json → Except JsError String
  | .null => .ok "null"
  | .bool b => .ok (if b then "true" else "false")
  | .num q => .ok (JsNumber.toString q)
  | .str s => .ok s
  | .arr items => (joinedItems items).map (",".intercalate ·)
  | .obj fields =>
      if (fields.lookup "toString").isSome then .error cannotConvert else .ok "[object Object]"

/-- The parts of `items.join(",")`. -/
def joinedItems : List Json → Except JsError (List String)
  | [] => .ok []
  | .null :: items => (joinedItems items).map ("" :: ·)
  | item :: items =>
      match jsonToString item with
      | .ok s => (joinedItems items).map (s :: ·)
      | .error e => .error e

end

/-- `String(value)`. -/
def jsToString : Option JsValue → Except JsError String
  | none => .ok "undefined"
  | some (.json value) => jsonToString value
  | some .objectPrototype => .ok "[object Object]"
  | some (.function name) => .ok ("function " ++ name ++ "() \x7b [native code] \x7d")

/-- `Number(value)`; an object is converted to a string first. -/
def jsToNumber : Option JsValue → Except JsError JsNumber
  | none => .ok .nan
  | some (.json .null) => .ok (.finite 0)
  | some (.json (.bool b)) => .ok (.finite (if b then 1 else 0))
  | some (.json (.num q)) => .ok (.finite q)
  | value => (jsToString value).map (JsNumber.ofString isJsSpace)

/-- A configured value as a value. -/
def ConditionValue.toJs (value : ConditionValue) : JsValue := .json value.toJson

/-! ## The node -/

/-- `path.split(".")`. -/
def segments (path : String) : List String := (path.toList.splitOn '.').map String.ofList

/-- One segment of a path. -/
def readSegment (currentValue : Option JsValue) (segment : String) : Option JsValue :=
  match currentValue with
  | some value => if value.isRecord then value.get segment else none
  | none => none

def getValueByPath (input : Record) (path : String) : Option JsValue :=
  (segments path).foldl readSegment (some (.json (.obj input)))

/-- `value ?? ""`. -/
def orEmpty : Option JsValue → Option JsValue
  | none | some (.json .null) => some (.json (.str ""))
  | value => value

/-- `s.includes(part)`. -/
def includes (s part : String) : Bool := part.toList <:+: s.toList

/-- `value !== undefined && value !== null && value !== ""`. -/
def isPresent (value : Option JsValue) : Bool :=
  value ≠ none ∧ value ≠ some (.json .null) ∧ value ≠ some (.json (.str ""))

def evaluateCondition (actualValue : Option JsValue) (operator : String)
    (expectedValue : Option ConditionValue) : Except JsError Bool :=
  let expectedValue := expectedValue.map ConditionValue.toJs
  if operator = "exists" then .ok (isPresent actualValue)
  else if operator = "equals" then do
    return (← jsToString actualValue) = (← jsToString expectedValue)
  else if operator = "notEquals" then do
    return (← jsToString actualValue) ≠ (← jsToString expectedValue)
  else if operator = "contains" then do
    return includes (← jsToString (orEmpty actualValue)) (← jsToString (orEmpty expectedValue))
  else if operator = "greaterThan" then do
    return (← jsToNumber expectedValue).lt (← jsToNumber actualValue)
  else if operator = "lessThan" then do
    return (← jsToNumber actualValue).lt (← jsToNumber expectedValue)
  else .ok false

/-- `ConditionActionNode["config"]`, without the bounds that the schema
checks. -/
structure ConditionActionConfig where
  field : String
  operator : WorkflowConditionOperator
  value : Option ConditionValue
  trueLabel : String
  falseLabel : String

/-- What the node writes under `condition`. -/
structure ConditionReport where
  field : String
  operator : String
  expected : Json
  actual : JsValue
  matched : Bool
  route : String

/-- A value of the node's output. -/
inductive OutputValue where
  | payload (value : Json)
  | condition (report : ConditionReport)

def conditionReport (config : ConditionActionConfig) (actualValue : Option JsValue)
    (matched : Bool) : ConditionReport where
  field := config.field
  operator := config.operator.literal
  expected := (config.value.map ConditionValue.toJson).getD .null
  actual := actualValue.getD (.json .null)
  matched
  route := if matched then config.trueLabel else config.falseLabel

/-- `{ ...context.input, condition: { ... } }`. -/
def withCondition (input : Record) (report : ConditionReport) : JsMap OutputValue :=
  JsMap.set ⟨input.map fun entry => (entry.1, .payload entry.2)⟩ "condition" (.condition report)

def executeConditionActionNode (config : ConditionActionConfig) (input : Record) :
    Except JsError (JsMap OutputValue) :=
  let actualValue := getValueByPath input config.field
  (evaluateCondition actualValue config.operator.literal config.value).map fun matched =>
    withCondition input (conditionReport config actualValue matched)

/-! ## Where a path leads -/

/-- The segments lead from one JSON value to another, along own keys of
objects. -/
inductive Leads : Json → List String → Json → Prop
  | here {value : Json} : Leads value [] value
  | step {fields : Record} {key : String} {value target : Json} {keys : List String} :
      fields.lookup key = some value → Leads value keys target →
      Leads (.obj fields) (key :: keys) target

/-- The path leads to a value that is not `null` and not empty. -/
def LeadsToValue (value : Json) (keys : List String) : Prop :=
  ∃ target, Leads value keys target ∧ target ≠ .null ∧ target ≠ .str ""

/-- Along own keys the segments come to an object that the rest is not an own
key of, but a name that it inherits, or `__proto__` and a function of
`Object.prototype`. -/
inductive ReadsInherited : Json → List String → Prop
  | member {fields : Record} {key : String} : fields.lookup key = none →
      key ∈ "__proto__" :: objectPrototypeFunctions.map (·.1) →
      ReadsInherited (.obj fields) [key]
  | proto {fields : Record} {key : String} : fields.lookup "__proto__" = none →
      key ∈ objectPrototypeFunctions.map (·.1) →
      ReadsInherited (.obj fields) ["__proto__", key]
  | own {fields : Record} {key : String} {value : Json} {keys : List String} :
      fields.lookup key = some value → ReadsInherited value keys →
      ReadsInherited (.obj fields) (key :: keys)

theorem leadsToValue_cons_iff {fields : Record} {key : String} {keys : List String} :
    LeadsToValue (.obj fields) (key :: keys) ↔
      ∃ value, fields.lookup key = some value ∧ LeadsToValue value keys := by
  constructor
  · rintro ⟨target, hleads, hvalue⟩
    cases hleads with
    | step hkey hrest => exact ⟨_, hkey, target, hrest, hvalue⟩
  · rintro ⟨value, hkey, target, hrest, hvalue⟩
    exact ⟨target, .step hkey hrest, hvalue⟩

/-- What is read by an own key is read further on. -/
theorem readsInherited_own_iff {fields : Record} {key : String} {value : Json}
    {keys : List String} (hkey : fields.lookup key = some value) :
    ReadsInherited (.obj fields) (key :: keys) ↔ ReadsInherited value keys := by
  constructor
  · intro h
    cases h with
    | member hnone => rw [hkey] at hnone; cases hnone
    | proto hnone => rw [hkey] at hnone; cases hnone
    | own hsome hrest =>
        rw [hkey] at hsome
        exact Option.some.inj hsome ▸ hrest
  · exact .own hkey

/-- Nothing that is read by inheritance is led to. -/
theorem ReadsInherited.not_leadsToValue {value : Json} {keys : List String}
    (h : ReadsInherited value keys) : ¬ LeadsToValue value keys := by
  induction h with
  | member hnone _ =>
      intro hleads
      obtain ⟨_, hsome, -⟩ := leadsToValue_cons_iff.mp hleads
      rw [hnone] at hsome
      cases hsome
  | proto hnone _ =>
      intro hleads
      obtain ⟨_, hsome, -⟩ := leadsToValue_cons_iff.mp hleads
      rw [hnone] at hsome
      cases hsome
  | own hkey _ ih =>
      intro hleads
      obtain ⟨_, hsome, hrest⟩ := leadsToValue_cons_iff.mp hleads
      rw [hkey] at hsome
      exact ih (Option.some.inj hsome ▸ hrest)

/-! ### What the walk finds -/

theorem foldl_readSegment_none (keys : List String) : keys.foldl readSegment none = none := by
  induction keys with
  | nil => rfl
  | cons key keys ih => exact ih

/-- A value that is no record has nothing below it. -/
theorem isPresent_foldl_of_not_isRecord {value : JsValue} (h : value.isRecord = false)
    (keys : List String) :
    isPresent (keys.foldl readSegment (some value)) = true ↔
      keys = [] ∧ isPresent (some value) = true := by
  cases keys with
  | nil => simp
  | cons key keys =>
      have hnone : readSegment (some value) key = none := by simp [readSegment, h]
      rw [List.foldl_cons, hnone, foldl_readSegment_none]
      simp [isPresent]

/-- Below a function name of `Object.prototype`, or another name that is not
`__proto__`. -/
theorem isPresent_foldl_function (key : String) (keys : List String) :
    isPresent (keys.foldl readSegment ((objectPrototypeFunctions.lookup key).map .function)) = true
      ↔ keys = [] ∧ key ∈ objectPrototypeFunctions.map (·.1) := by
  cases hname : objectPrototypeFunctions.lookup key with
  | none =>
      have hnot : key ∉ objectPrototypeFunctions.map (·.1) := by
        intro hmem
        obtain ⟨entry, hentry, rfl⟩ := List.mem_map.mp hmem
        exact absurd ((lookup_of_mem (by decide) hentry).symm.trans hname) (by simp)
      rw [Option.map_none, foldl_readSegment_none]
      simp [isPresent, hnot]
  | some name =>
      have hmem : key ∈ objectPrototypeFunctions.map (·.1) :=
        List.mem_map_of_mem (mem_of_lookup hname)
      rw [Option.map_some, isPresent_foldl_of_not_isRecord rfl]
      simp [isPresent, hmem]

/-- Below what an object inherits under a key. -/
theorem isPresent_foldl_inherited (key : String) (keys : List String) :
    isPresent (keys.foldl readSegment (JsValue.inherited key)) = true ↔
      (keys = [] ∧ key ∈ "__proto__" :: objectPrototypeFunctions.map (·.1))
        ∨ key = "__proto__" ∧ ∃ last ∈ objectPrototypeFunctions.map (·.1), keys = [last] := by
  by_cases hproto : key = "__proto__"
  · subst hproto
    cases keys with
    | nil => simp [JsValue.inherited, isPresent]
    | cons last keys =>
        have hnull : "__proto__" ∉ objectPrototypeFunctions.map (·.1) := by decide
        by_cases hlast : last = "__proto__"
        · subst hlast
          have hread : readSegment (JsValue.inherited "__proto__") "__proto__"
              = some (.json .null) := rfl
          rw [List.foldl_cons, hread, isPresent_foldl_of_not_isRecord rfl]
          refine iff_of_false (fun h => absurd h.2 (by decide)) ?_
          rintro (⟨hnil, -⟩ | ⟨-, last, hmem, heq⟩)
          · cases hnil
          · obtain ⟨rfl, -⟩ := List.cons.inj heq
            exact hnull hmem
        · have hread : readSegment (JsValue.inherited "__proto__") last
              = (objectPrototypeFunctions.lookup last).map .function := by
            simp [readSegment, JsValue.inherited, JsValue.isRecord, JsValue.get, hlast]
          rw [List.foldl_cons, hread, isPresent_foldl_function]
          constructor
          · rintro ⟨rfl, hmem⟩
            exact Or.inr ⟨rfl, last, hmem, rfl⟩
          · rintro (⟨hnil, -⟩ | ⟨-, other, hmem, heq⟩)
            · cases hnil
            · obtain ⟨rfl, rfl⟩ := List.cons.inj heq
              exact ⟨rfl, hmem⟩
  · rw [JsValue.inherited, if_neg hproto, isPresent_foldl_function]
    simp [hproto]

/-- What a name that is not an own key reads. -/
theorem readsInherited_cons_iff {fields : Record} {key : String} {keys : List String}
    (hkey : fields.lookup key = none) :
    ReadsInherited (.obj fields) (key :: keys) ↔
      (keys = [] ∧ key ∈ "__proto__" :: objectPrototypeFunctions.map (·.1))
        ∨ key = "__proto__" ∧ ∃ last ∈ objectPrototypeFunctions.map (·.1), keys = [last] := by
  constructor
  · intro h
    cases h with
    | member _ hmem => exact Or.inl ⟨rfl, hmem⟩
    | proto _ hmem => exact Or.inr ⟨rfl, _, hmem, rfl⟩
    | own hsome => rw [hkey] at hsome; cases hsome
  · rintro (⟨rfl, hmem⟩ | ⟨rfl, last, hmem, rfl⟩)
    · exact .member hkey hmem
    · exact .proto hkey hmem

/-- The walk finds a value where the path leads to one, and where it reads
what an object inherits. -/
theorem isPresent_walk_iff : ∀ (keys : List String) (value : Json),
    isPresent (keys.foldl readSegment (some (.json value))) = true ↔
      LeadsToValue value keys ∨ ReadsInherited value keys
  | [], value => by
      constructor
      · intro h
        obtain ⟨-, hnull, hempty⟩ := of_decide_eq_true h
        exact Or.inl ⟨value, .here, fun h => hnull (h ▸ rfl), fun h => hempty (h ▸ rfl)⟩
      · rintro (⟨target, hleads, hnull, hempty⟩ | h)
        · cases hleads with
          | here => simp [isPresent, hnull, hempty]
        · cases h
  | key :: keys, .obj fields => by
      rw [List.foldl_cons]
      cases hkey : fields.lookup key with
      | some value =>
          have hread : readSegment (some (.json (.obj fields))) key = some (.json value) := by
            simp [readSegment, JsValue.isRecord, Json.isRecord, JsValue.get, hkey]
          rw [hread, isPresent_walk_iff keys value, readsInherited_own_iff hkey,
            leadsToValue_cons_iff]
          simp [hkey]
      | none =>
          have hread : readSegment (some (.json (.obj fields))) key = JsValue.inherited key := by
            simp [readSegment, JsValue.isRecord, Json.isRecord, JsValue.get, hkey]
          rw [hread, isPresent_foldl_inherited, readsInherited_cons_iff hkey,
            leadsToValue_cons_iff]
          simp [hkey]
  | key :: keys, .null | key :: keys, .bool _ | key :: keys, .num _ | key :: keys, .str _
  | key :: keys, .arr _ => by
      rw [isPresent_foldl_of_not_isRecord rfl]
      refine iff_of_false (fun h => by cases h.1) ?_
      rintro (⟨target, hleads, -⟩ | h)
      · cases hleads
      · cases h

theorem lookup_payload (key : String) : ∀ input : Record,
    (input.map fun entry => (entry.1, OutputValue.payload entry.2)).lookup key
      = (input.lookup key).map .payload
  | [] => rfl
  | (k, v) :: input => by
      rw [List.map_cons, List.lookup_cons, List.lookup_cons, lookup_payload key input]
      cases key == k <;> rfl

/-- Every key of the input but `condition` is kept. -/
theorem withCondition_get? (input : Record) (report : ConditionReport) (key : String) :
    (withCondition input report).get? key =
      if key = "condition" then some (.condition report) else (input.lookup key).map .payload := by
  rw [withCondition, JsMap.get?_set, JsMap.get?, lookup_payload]

/-- **Condition paths and the payload.** With the operator `exists` the node
matches where the own keys of the input lead to a value, and keeps the rest
of the input, if and only if the path does not read what an object inherits
from `Object.prototype`. -/
theorem executeConditionActionNode_exists_iff (config : ConditionActionConfig) (input : Record) :
    (∃ output, executeConditionActionNode { config with operator := .exists } input = .ok output
      ∧ ((∃ report, output.get? "condition" = some (.condition report) ∧ report.matched = true)
          ↔ LeadsToValue (.obj input) (segments config.field))
      ∧ ∀ key, key ≠ "condition" → output.get? key = (input.lookup key).map .payload) ↔
      ¬ ReadsInherited (.obj input) (segments config.field) := by
  let actualValue := getValueByPath input config.field
  let report := conditionReport { config with operator := .exists } actualValue
    (isPresent actualValue)
  have hrun : executeConditionActionNode { config with operator := .exists } input
      = .ok (withCondition input report) := rfl
  have hreport : (withCondition input report).get? "condition" = some (.condition report) := by
    rw [withCondition_get?, if_pos rfl]
  have hwalk : report.matched = true ↔ LeadsToValue (.obj input) (segments config.field)
      ∨ ReadsInherited (.obj input) (segments config.field) := isPresent_walk_iff _ _
  constructor
  · rintro ⟨output, hok, hmatched, -⟩ hinherited
    obtain rfl := Except.ok.inj (hrun.symm.trans hok)
    exact hinherited.not_leadsToValue
      (hmatched.mp ⟨report, hreport, hwalk.mpr (Or.inr hinherited)⟩)
  · intro hown
    refine ⟨_, hrun, ⟨?_, fun hleads => ⟨report, hreport, hwalk.mpr (Or.inl hleads)⟩⟩,
      fun key hkey => by rw [withCondition_get?, if_neg hkey]⟩
    rintro ⟨_, heq, hmatched⟩
    obtain rfl := OutputValue.condition.inj (Option.some.inj (hreport.symm.trans heq))
    exact (hwalk.mp hmatched).resolve_right hown

/-- In a payload that has no such key, `constructor` exists. -/
theorem constructor_exists :
    ∃ output, executeConditionActionNode
        ⟨"constructor", .exists, none, "matched", "not_matched"⟩ [("priority", .str "high")]
          = .ok output
      ∧ (∃ report, output.get? "condition" = some (.condition report) ∧ report.matched = true)
      ∧ ¬ LeadsToValue (.obj [("priority", .str "high")]) (segments "constructor") := by
  refine ⟨_, rfl, ⟨_, rfl, by decide⟩, ?_⟩
  have hsegments : segments "constructor" = ["constructor"] := by decide
  rw [hsegments, leadsToValue_cons_iff]
  rintro ⟨_, hsome, -⟩
  cases hsome

/-! ## Absent fields -/

/-- What a configured value is written as. -/
def ConditionValue.text : ConditionValue → String
  | .string s => s
  | .number q => JsNumber.toString q
  | .boolean b => if b then "true" else "false"

theorem jsToString_toJs (value : ConditionValue) :
    jsToString (some value.toJs) = .ok value.text := by
  cases value <;> rfl

/-- A text that no number and no boolean is written as, is written only for
itself. -/
theorem ConditionValue.text_eq_iff {s : String} (value : ConditionValue)
    (hnumber : s.toList.head?.any JsNumber.isHead = false) (htrue : s ≠ "true")
    (hfalse : s ≠ "false") : value.text = s ↔ value = .string s := by
  cases value with
  | string t => simp [text]
  | number q => simp [text, JsNumber.toString_ne hnumber q]
  | boolean b => cases b <;> simp [text, htrue.symm, hfalse.symm]

section

variable {actualValue : Option JsValue} {text : String} (value : ConditionValue)

theorem evaluateCondition_equals (h : jsToString actualValue = .ok text) :
    evaluateCondition actualValue "equals" (some value) = .ok (text = value.text) := by
  have hexpected := jsToString_toJs value
  simp only [evaluateCondition, String.reduceEq, if_false, if_true, Option.map_some, h, hexpected]
  rfl

/-- Nothing but the empty text is in what an absent value counts as. -/
theorem evaluateCondition_contains (h : orEmpty actualValue = some (.json (.str ""))) :
    evaluateCondition actualValue "contains" (some value) = .ok (value.text = "") := by
  have hexpected : jsToString (orEmpty (some value.toJs)) = .ok value.text := by
    cases value <;> rfl
  have hempty : jsToString (some (.json (.str ""))) = .ok "" := rfl
  have hincludes : includes "" value.text = decide (value.text = "") := by
    simp [includes]
  simp only [evaluateCondition, String.reduceEq, if_false, if_true, Option.map_some, h, hexpected,
    hempty]
  exact congrArg Except.ok hincludes

theorem evaluateCondition_greaterThan {n : JsNumber} (h : jsToNumber actualValue = .ok n)
    (q : Rat) : evaluateCondition actualValue "greaterThan" (some (.number q))
      = .ok ((JsNumber.finite q).lt n) := by
  have hexpected : jsToNumber (some (ConditionValue.number q).toJs) = .ok (.finite q) := rfl
  simp only [evaluateCondition, String.reduceEq, if_false, if_true, Option.map_some, h, hexpected]
  rfl

theorem evaluateCondition_lessThan {n : JsNumber} (h : jsToNumber actualValue = .ok n)
    (q : Rat) : evaluateCondition actualValue "lessThan" (some (.number q))
      = .ok (n.lt (JsNumber.finite q)) := by
  have hexpected : jsToNumber (some (ConditionValue.number q).toJs) = .ok (.finite q) := rfl
  simp only [evaluateCondition, String.reduceEq, if_false, if_true, Option.map_some, h, hexpected]
  rfl

/-- The comparisons do not match: `equals` and `contains` for no value but
the empty text, `greaterThan` and `lessThan` for no number. -/
def NeverMatches (actualValue : Option JsValue) (value : ConditionValue) : Prop :=
  (value ≠ .string "" →
    evaluateCondition actualValue "equals" (some value) = .ok false
      ∧ evaluateCondition actualValue "contains" (some value) = .ok false)
  ∧ ∀ q, value = .number q →
    evaluateCondition actualValue "greaterThan" (some value) = .ok false
      ∧ evaluateCondition actualValue "lessThan" (some value) = .ok false

/-- For a value that counts as the empty text, what it converts to decides. -/
theorem neverMatches_iff {n : JsNumber} (htext : jsToString actualValue = .ok text)
    (hempty : orEmpty actualValue = some (.json (.str "")))
    (hnumber : jsToNumber actualValue = .ok n) :
    NeverMatches actualValue value ↔
      (value ≠ .string "" → text ≠ value.text)
        ∧ ∀ q, value = .number q → (JsNumber.finite q).lt n = false
          ∧ n.lt (JsNumber.finite q) = false := by
  refine and_congr (forall_congr' fun hne => ?_) (forall₂_congr fun q hvalue => ?_)
  · have hcontains : value.text ≠ "" := fun h => hne ((value.text_eq_iff rfl (by decide)
      (by decide)).mp h)
    rw [evaluateCondition_equals value htext, evaluateCondition_contains value hempty]
    simp [hcontains]
  · subst hvalue
    rw [evaluateCondition_greaterThan hnumber, evaluateCondition_lessThan hnumber]
    simp

theorem neverMatches_undefined :
    NeverMatches none value ↔ value ≠ .string "undefined" := by
  have htext := value.text_eq_iff (s := "undefined") rfl (by decide) (by decide)
  rw [neverMatches_iff value rfl rfl rfl]
  constructor
  · rintro ⟨hequals, -⟩ rfl
    exact hequals (by decide) rfl
  · intro hne
    exact ⟨fun _ h => hne (htext.mp h.symm), fun q _ => ⟨rfl, rfl⟩⟩

/-- Neither less nor greater than a number that counts as `0`. -/
theorem lt_zero_iff (q : Rat) : ((JsNumber.finite q).lt (.finite 0) = false
    ∧ (JsNumber.finite 0).lt (.finite q) = false) ↔ q = 0 := by
  simp only [JsNumber.lt, decide_eq_false_iff_not, not_lt]
  exact ⟨fun h => le_antisymm h.2 h.1, fun h => h ▸ ⟨le_rfl, le_rfl⟩⟩

theorem neverMatches_null : NeverMatches (some (.json .null)) value ↔
    value ≠ .string "null" ∧ ∀ q, value = .number q → q = 0 := by
  have htext := value.text_eq_iff (s := "null") rfl (by decide) (by decide)
  rw [neverMatches_iff value rfl rfl rfl]
  simp only [lt_zero_iff]
  refine and_congr_left' ⟨?_, fun hne _ h => hne (htext.mp h.symm)⟩
  rintro hequals rfl
  exact hequals (by decide) rfl

theorem neverMatches_empty : NeverMatches (some (.json (.str ""))) value ↔
    ∀ q, value = .number q → q = 0 := by
  have htext := value.text_eq_iff (s := "") rfl (by decide) (by decide)
  have hnumber : jsToNumber (some (.json (.str ""))) = .ok (.finite 0) := rfl
  rw [neverMatches_iff value rfl rfl hnumber]
  simp only [lt_zero_iff]
  exact and_iff_right fun hne h => hne (htext.mp h.symm)

/-- **Absent fields and the comparisons.** Where `exists` does not match, the
comparisons do not either, if and only if a missing field is not compared
with the text `undefined`, and neither is `null` with the text `null` nor
`null` or the empty text with a number other than `0`. -/
theorem absent_never_matches_iff (input : Record) (path : String) :
    (evaluateCondition (getValueByPath input path) "exists" (some value) = .ok false →
      NeverMatches (getValueByPath input path) value) ↔
    (getValueByPath input path = none → value ≠ .string "undefined")
      ∧ (getValueByPath input path = some (.json .null) →
          value ≠ .string "null" ∧ ∀ q, value = .number q → q = 0)
      ∧ (getValueByPath input path = some (.json (.str "")) →
          ∀ q, value = .number q → q = 0) := by
  have hexists : evaluateCondition (getValueByPath input path) "exists" (some value) = .ok false ↔
      getValueByPath input path = none ∨ getValueByPath input path = some (.json .null)
        ∨ getValueByPath input path = some (.json (.str "")) := by
    generalize getValueByPath input path = actualValue
    simp only [evaluateCondition, if_true, Except.ok.injEq, isPresent, decide_eq_false_iff_not]
    tauto
  rw [hexists, or_imp, or_imp]
  refine and_congr (forall_congr' fun h => ?_) (and_congr (forall_congr' fun h => ?_)
    (forall_congr' fun h => ?_))
  · rw [h, neverMatches_undefined]
  · rw [h, neverMatches_null]
  · rw [h, neverMatches_empty]

/-- An amount that is `null` is less than `100`. -/
theorem null_is_less :
    evaluateCondition (getValueByPath [("amount", .null)] "amount") "exists" (some (.number 100))
        = .ok false
      ∧ evaluateCondition (getValueByPath [("amount", .null)] "amount") "lessThan"
          (some (.number 100)) = .ok true := by
  have hread : getValueByPath [("amount", .null)] "amount" = some (.json .null) := by decide
  rw [hread, evaluateCondition_lessThan rfl]
  exact ⟨rfl, rfl⟩

end

end FlowPilot
