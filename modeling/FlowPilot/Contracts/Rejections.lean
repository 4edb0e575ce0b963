import FlowPilot.Contracts.WorkflowDefinition

/-!
# What a rejection reports

No schema of `packages/contracts` rejects a value without saying why: each
combinator reports an issue if its parts do, so whatever
`workflowDefinitionSchema` does not accept comes with a first issue
(`workflowDefinitionSchema_reports`).
-/

namespace FlowPilot

open Schema

namespace Parsed

variable {α β : Type}

/-- A failure names an issue. -/
def Reports (p : Parsed α) : Prop := p ≠ .issues []

theorem reports_ok (a : α) : (ok a).Reports := nofun

theorem reports_fail (code : IssueCode) (message : Option String) :
    (fail code message : Parsed α).Reports := nofun

namespace Reports

variable {p : Parsed α} {q : Parsed (α → β)}

theorem map (hp : p.Reports) (f : α → β) : (p.map f).Reports := by
  cases p with
  | ok a => exact reports_ok _
  | issues found => exact fun h => hp (congrArg issues (issues.inj h))

theorem fmap (hp : p.Reports) (f : α → β) : (f <$> p).Reports := by
  cases p with
  | ok a => exact reports_ok _
  | issues found => exact fun h => hp (congrArg issues (issues.inj h))

theorem seq (hq : q.Reports) (hp : p.Reports) : (q <*> p).Reports := by
  cases q with
  | ok f => exact hp.fmap f
  | issues found =>
      have hne : found ≠ [] := fun h => hq (congrArg issues h)
      cases p with
      | ok a => exact fun h => hne (issues.inj h)
      | issues found' => exact fun h => hne (List.append_eq_nil_iff.mp (issues.inj h)).1

theorem at_ (hp : p.Reports) (segment : PathSegment) : (p.at_ segment).Reports := by
  cases p with
  | ok a => exact reports_ok a
  | issues found =>
      intro h
      exact hp (congrArg issues (List.map_eq_nil_iff.mp (issues.inj h)))

theorem andThen (hp : p.Reports) {f : α → Parsed β} (hf : ∀ a, (f a).Reports) :
    (p.andThen f).Reports := by
  cases p with
  | ok a => exact hf a
  | issues found => exact fun h => hp (congrArg issues (issues.inj h))

/-- A check whose failure names an issue. -/
theorem dite {c : Prop} [Decidable c] {t : c → Parsed α} {e : ¬ c → Parsed α}
    (ht : ∀ h, (t h).Reports) (he : ∀ h, (e h).Reports) : (if h : c then t h else e h).Reports := by
  split
  · exact ht _
  · exact he _

theorem ite {c : Prop} [Decidable c] {t e : Parsed α} (ht : t.Reports) (he : e.Reports) :
    (if c then t else e).Reports := by
  split
  · exact ht
  · exact he

end Reports

end Parsed

/-! ## Schemas -/

section

open Parsed

variable {α : Type} {s : Schema α}

/-- Whatever the schema rejects, it reports. -/
def Reporting (s : Schema α) : Prop := ∀ o, (s o).Reports

theorem string_reports : Reporting string := by
  intro o
  unfold string
  split
  · exact reports_ok _
  · exact reports_fail _ _

theorem number_reports : Reporting number := by
  intro o
  unfold number
  split
  · exact reports_ok _
  · exact reports_fail _ _

theorem boundedString_reports (lo hi : Nat) : Reporting (boundedString lo hi) := fun o =>
  (string_reports o).andThen fun _ =>
    .dite (fun _ => .dite (fun _ => reports_ok _) fun _ => reports_fail _ _)
      fun _ => reports_fail _ _

theorem boundedNumber_reports (lo hi : Rat) : Reporting (boundedNumber lo hi) := fun o =>
  (number_reports o).andThen fun _ =>
    .dite (fun _ => .dite (fun _ => reports_ok _) fun _ => reports_fail _ _)
      fun _ => reports_fail _ _

theorem boundedInt_reports (lo hi : Nat) : Reporting (boundedInt lo hi) := fun o =>
  (number_reports o).andThen fun _ =>
    .ite (.dite (fun _ => .ite (reports_ok _) (reports_fail _ _)) fun _ => reports_fail _ _)
      (reports_fail _ _)

theorem enumOf_reports (entries : List (String × α)) : Reporting (enumOf entries) := by
  intro o
  unfold enumOf
  split
  · split
    · exact reports_ok _
    · exact reports_fail _ _
  · exact reports_fail _ _

namespace Reporting

variable (hs : Reporting s)

include hs

theorem optional : Reporting (Schema.optional s) := by
  intro o
  cases o with
  | none => exact reports_ok _
  | some v => exact (hs (some v)).map _

theorem default (value : α) : Reporting (Schema.default value s) := by
  intro o
  cases o with
  | none => exact reports_ok _
  | some v => exact hs (some v)

theorem elements : ∀ (i : Nat) (vs : List Json), (Schema.elements s i vs).Reports
  | _, [] => reports_ok _
  | i, v :: vs => (((hs (some v)).at_ _).fmap _).seq (elements (i + 1) vs)

theorem boundedArray (lo hi : Nat) : Reporting (Schema.boundedArray s lo hi) := by
  intro o
  unfold Schema.boundedArray
  split
  · exact (hs.elements 0 _).andThen fun _ =>
      .dite (fun _ => .dite (fun _ => reports_ok _) fun _ => reports_fail _ _)
        fun _ => reports_fail _ _
  · exact reports_fail _ _

theorem values : ∀ fields : Record, (Schema.values s fields).Reports
  | [] => reports_ok _
  | (_, v) :: fields => (((hs (some v)).at_ _).fmap _).seq (values fields)

theorem record : Reporting (Schema.record s) := by
  intro o
  unfold Schema.record
  split
  · exact hs.values _
  · exact reports_fail _ _

theorem field (fields : Record) (k : String) : (Schema.field fields k s).Reports :=
  (hs _).at_ _

end Reporting

theorem strictObject_reports {keys : List String} {body : Record → Parsed α}
    (hbody : ∀ fields, (body fields).Reports) : Reporting (strictObject keys body) := by
  intro o
  unfold strictObject
  split
  · exact ((hbody _).fmap _).seq (.ite (reports_ok _) (reports_fail _ _))
  · exact reports_fail _ _

theorem unknown_reports : Reporting unknown := by
  intro o
  cases o with
  | none => exact reports_ok _
  | some v => exact reports_ok _

end

/-! ## Definitions -/

theorem workflowNodeIdSchema_reports : Reporting workflowNodeIdSchema := fun o =>
  (boundedString_reports 1 80 o).andThen fun _ =>
    .dite (fun _ => Parsed.reports_ok _) fun _ => Parsed.reports_fail _ _

theorem positionSchema_reports : Reporting positionSchema :=
  (strictObject_reports fun fields =>
    ((number_reports.field fields "x").fmap _).seq (number_reports.field fields "y")).optional

theorem transformConfigSchema_reports : Reporting transformConfigSchema := fun o =>
  (strictObject_reports (fun fields =>
    (((enumOf_reports _).field fields "mode").fmap _).seq
      (((boundedString_reports 1 120).boundedArray 1 50).optional.field fields "pick")) o).andThen
    fun _ => .dite (fun _ => Parsed.reports_ok _) fun _ => (Parsed.reports_fail _ _).at_ _

theorem conditionValueSchema_reports : Reporting conditionValueSchema := by
  intro o
  unfold conditionValueSchema
  split
  · exact Parsed.reports_ok _
  · exact Parsed.reports_ok _
  · exact Parsed.reports_ok _
  · exact Parsed.reports_fail _ _

theorem conditionConfigSchema_reports : Reporting conditionConfigSchema := fun o =>
  (strictObject_reports (fun fields =>
    ((((((boundedString_reports 1 120).field fields "field").fmap _).seq
      ((enumOf_reports _).field fields "operator")).seq
      (conditionValueSchema_reports.optional.field fields "value")).seq
      (((boundedString_reports 1 80).default _).field fields "trueLabel")).seq
      (((boundedString_reports 1 80).default _).field fields "falseLabel")) o).andThen
    fun _ => .dite (fun _ => Parsed.reports_ok _) fun _ => (Parsed.reports_fail _ _).at_ _

theorem urlSchema_reports [Runtime] : Reporting urlSchema := fun o =>
  (string_reports o).andThen fun _ => .ite (Parsed.reports_ok _) (Parsed.reports_fail _ _)

theorem httpRequestConfigSchema_reports [Runtime] : Reporting httpRequestConfigSchema :=
  strictObject_reports fun fields =>
    (((((((enumOf_reports _).default _).field fields "mode").fmap _).seq
      ((enumOf_reports _).field fields "method")).seq
      (urlSchema_reports.field fields "url")).seq
      (string_reports.record.optional.field fields "headers")).seq
      (unknown_reports.record.optional.field fields "body") |>.seq
      (((boundedInt_reports 100 30000).default _).field fields "timeoutMs")

theorem aiPromptConfigSchema_reports : Reporting aiPromptConfigSchema :=
  strictObject_reports fun fields =>
    (((((((boundedString_reports 1 2000).field fields "prompt").fmap _).seq
      ((boundedString_reports 1 2000).optional.field fields "systemPrompt")).seq
      (((boundedString_reports 1 80).default _).field fields "provider")).seq
      ((boundedString_reports 1 120).optional.field fields "credentialId")).seq
      (((boundedString_reports 1 120).default _).field fields "model")).seq
      (((boundedNumber_reports 0 2).default _).field fields "temperature")

theorem nodeSchema_reports {configSchema : Schema WorkflowNodeConfig}
    (hconfig : Reporting configSchema) : Reporting (nodeSchema configSchema) :=
  strictObject_reports fun fields =>
    ((((workflowNodeIdSchema_reports.field fields "id").fmap _).seq
      ((boundedString_reports 1 120).field fields "name")).seq
      (positionSchema_reports.field fields "position")).seq (hconfig.field fields "config")

theorem workflowNodeSchema_reports [Runtime] : Reporting workflowNodeSchema := by
  have hempty : Reporting manualTriggerConfigSchema :=
    strictObject_reports fun _ => Parsed.reports_ok _
  have hschemas : ∀ entry ∈ workflowNodeSchemas, Reporting entry.2 := by
    simp only [workflowNodeSchemas, List.forall_mem_cons]
    exact ⟨nodeSchema_reports fun o => (hempty o).map _,
      nodeSchema_reports fun o => (transformConfigSchema_reports o).map _,
      nodeSchema_reports fun o => (conditionConfigSchema_reports o).map _,
      nodeSchema_reports fun o => (httpRequestConfigSchema_reports o).map _,
      nodeSchema_reports fun o => (aiPromptConfigSchema_reports o).map _, by simp⟩
  intro o
  unfold workflowNodeSchema
  split
  · split
    · rename_i schema hschema
      exact hschemas _ (mem_of_lookup hschema) o
    · exact (Parsed.reports_fail _ _).at_ _
  · exact (Parsed.reports_fail _ _).at_ _

theorem workflowEdgeSchema_reports : Reporting workflowEdgeSchema :=
  strictObject_reports fun fields =>
    (((workflowNodeIdSchema_reports.field fields "id").fmap _).seq
      (workflowNodeIdSchema_reports.field fields "sourceNodeId")).seq
      (workflowNodeIdSchema_reports.field fields "targetNodeId")

theorem workflowDefinitionObjectSchema_reports [Runtime] :
    Reporting workflowDefinitionObjectSchema :=
  strictObject_reports fun fields =>
    (((workflowNodeSchema_reports.boundedArray 1 100).field fields "nodes").fmap _).seq
      ((workflowEdgeSchema_reports.boundedArray 0 200).field fields "edges")

/-- A definition is rejected with at least one issue. -/
theorem workflowDefinitionSchema_reports [Runtime] : Reporting workflowDefinitionSchema := by
  intro o
  refine (workflowDefinitionObjectSchema_reports o).andThen fun definition => ?_
  split
  · exact Parsed.reports_ok _
  · rename_i hne
    exact fun h => hne (Parsed.issues.inj h)

end FlowPilot
