import FlowPilot.Api.VersionHistory
import FlowPilot.Contracts.Encoding
import FlowPilot.Worker.Nodes

/-!
# Every stored definition can be run

What the controller validates is stored with its defaults filled in, and a
restore copies what is stored without validating it again. Parsing is
idempotent, so whatever the requests do, and in whatever order the column
returns the keys, every stored definition is accepted by the worker, with the
same content, and put in order (`stored_definitions_run`).
-/

namespace FlowPilot

/-! ## Validation -/

/-- `issue.path.join(".")`. -/
def PathSegment.toString : PathSegment → String
  | .key name => name
  | .index i => i.repr

/-- The worker throws neither for the definition nor for its order. -/
theorem executeWorkflowNodes_of_ordered [Runtime] {m : WorkflowExecutionRequestedMessage}
    {execution : WorkflowExecution} {definition : WorkflowDefinition}
    {orderedNodes : List WorkflowNode}
    (hparsed : parseWorkflowDefinition execution.workflowVersion.definition = .ok definition)
    (hordered : orderWorkflowNodes definition = .ok orderedNodes) :
    executeWorkflowNodes m execution = (do
      ofExcept (assertNoSimulatedWorkflowFailure m)
      let finalOutput ← executeNodes m definition orderedNodes .empty m.input
      pure (executionOutput orderedNodes.length finalOutput)) := by
  unfold executeWorkflowNodes
  refine congrArg (ofExcept (assertNoSimulatedWorkflowFailure m) >>= ·) (funext fun _ => ?_)
  rw [hparsed]
  show ofExcept (orderWorkflowNodes definition) >>= _ = _
  rw [hordered]
  rfl

namespace Api

open Prog hiding pure throw bind tryCatch
open Schema

/-- `BadRequestException`; an error is a path and a message, `none` where it
is the library's own. -/
structure BadRequestException where
  message : String
  errors : List (String × Option String)

/-- `ZodValidationPipe.transform`. -/
def ZodValidationPipe.transform {α : Type} (schema : Schema α) (value : Option Json) :
    Except BadRequestException α :=
  match schema value with
  | .ok data => .ok data
  | .issues found => .error ⟨"Validation failed", found.map fun issue =>
      (".".intercalate (issue.path.map PathSegment.toString), issue.message)⟩

theorem ZodValidationPipe.transform_eq_ok {α : Type} {schema : Schema α} {value : Option Json}
    {data : α} (h : ZodValidationPipe.transform schema value = .ok data) :
    schema value = .ok data := by
  unfold ZodValidationPipe.transform at h
  split at h
  · rename_i hparsed
    cases h
    exact hparsed
  · cases h

/-- `/^[a-z0-9]+(?:-[a-z0-9]+)*$/`. -/
def slugPattern (s : String) : Bool :=
  (s.toList.splitOn '-').all fun part =>
    !part.isEmpty && part.all fun c => c.isLower || c.isDigit

example : ["lead-enrichment", "a--b", "-a", ""].map slugPattern = [true, false, false, false] := by
  decide +kernel

def slugFormat (s : String) : Parsed Unit :=
  if slugPattern s then .ok ()
  else .fail .invalidFormat (some "slug must use lowercase letters, numbers, and single hyphens")

/-- The length and the pattern are checked side by side. -/
def slugSchema : Schema String := fun v =>
  (string v).andThen fun s =>
    (fun slug _ => slug.val) <$> boundedString 3 80 v <*> slugFormat s

section

variable [Runtime]

def createWorkflowSchema : Schema CreateWorkflowDto :=
  strictObject ["name", "slug", "description", "definition"] fun fields =>
    (fun name slug description definition =>
        ⟨name.val, slug, description.map (·.val), definition.map WorkflowDefinition.toJson⟩)
      <$> field fields "name" (boundedString 1 120)
      <*> field fields "slug" slugSchema
      <*> field fields "description" (optional (boundedString 0 500))
      <*> field fields "definition" (optional workflowDefinitionSchema)

def createWorkflowVersionSchema : Schema CreateWorkflowVersionDto :=
  strictObject ["definition"] fun fields =>
    (fun definition => ⟨definition.toJson⟩)
      <$> field fields "definition" workflowDefinitionSchema

/-- The body of the request went through the pipe of its route. -/
def EditJob.Validated : EditJob → Prop
  | .create _ dto _ => ∃ body, ZodValidationPipe.transform createWorkflowSchema body = .ok dto
  | .createVersion _ _ dto =>
      ∃ body, ZodValidationPipe.transform createWorkflowVersionSchema body = .ok dto
  | _ => True

/-! ## Definitions that can be run -/

/-- The value is what an accepted definition is written as, in some order of
keys. -/
def Executable (v : Json) : Prop :=
  ∃ o definition, workflowDefinitionSchema o = .ok definition ∧ definition.toJson.Same v

theorem Executable.same {v w : Json} (h : Executable v) (hsame : v.Same w) : Executable w := by
  obtain ⟨o, definition, haccept, hv⟩ := h
  exact ⟨o, definition, haccept, hv.trans hsame⟩

theorem workflowDefinitionSchema_ensures :
    Ensures workflowDefinitionSchema fun definition => Executable definition.toJson :=
  fun o definition h => ⟨o, definition, h, .refl _⟩

/-- The default can be run. -/
theorem executable_default : Executable defaultWorkflowDefinition :=
  ⟨_, _, defaultWorkflowDefinition_accepted, .refl _⟩

omit [Runtime] in
theorem optional_eq_some {α : Type} {schema : Schema α} {o : Option Json} {a : α}
    (h : Schema.optional schema o = .ok (some a)) : schema o = .ok a := by
  cases o with
  | none => cases h
  | some v =>
      cases hv : schema (some v) with
      | ok a' =>
          rw [Schema.optional, hv] at h
          cases h
          rfl
      | issues found =>
          rw [Schema.optional, hv] at h
          cases h

theorem createWorkflowSchema_ensures :
    Ensures createWorkflowSchema fun dto => Executable (getInitialDefinition dto.definition) := by
  refine strictObject_ensures fun fields dto h => ?_
  obtain ⟨f₁, definition, h₁, hdefinition, rfl⟩ := Parsed.seq_eq_ok h
  obtain ⟨f₂, description, h₂, -, rfl⟩ := Parsed.seq_eq_ok h₁
  obtain ⟨f₃, slug, h₃, -, rfl⟩ := Parsed.seq_eq_ok h₂
  obtain ⟨name, -, rfl⟩ := Parsed.map_eq_ok h₃
  cases definition with
  | none => exact executable_default
  | some definition =>
      exact workflowDefinitionSchema_ensures _ definition
        (optional_eq_some (Parsed.at_eq_ok hdefinition))

theorem createWorkflowVersionSchema_ensures :
    Ensures createWorkflowVersionSchema fun dto => Executable dto.definition := by
  refine strictObject_ensures fun fields dto h => ?_
  obtain ⟨definition, hdefinition, rfl⟩ := Parsed.map_eq_ok h
  exact workflowDefinitionSchema_ensures _ definition (Parsed.at_eq_ok hdefinition)

/-- What the column returns: the same values, in some order of keys. -/
def Database.Reordered (db db' : Database) : Prop :=
  ∃ rows, List.Forall₂ (fun row row' : WorkflowVersion => ∃ definition,
      row.definition.Same definition ∧ row' = { row with definition }) db.workflowVersions rows
    ∧ db' = { db with workflowVersions := rows }

omit [Runtime] in
theorem Database.Reordered.refl (db : Database) : db.Reordered db :=
  ⟨db.workflowVersions, List.forall₂_same.mpr fun row _ => ⟨row.definition, .refl _, rfl⟩, rfl⟩

/-- Every version that is stored can be run. -/
def Database.Executable (db : Database) : Prop :=
  ∀ row ∈ db.workflowVersions, Api.Executable row.definition

theorem Database.Executable.reordered {db db' : Database} (h : db.Executable)
    (hdb : db.Reordered db') : db'.Executable := by
  obtain ⟨rows, hrows, rfl⟩ := hdb
  intro row' hrow'
  obtain ⟨i, hi, rfl⟩ := List.mem_iff_getElem.mp hrow'
  have hi' : i < db.workflowVersions.length := hrows.length_eq ▸ hi
  obtain ⟨definition, hsame, hrow⟩ := hrows.get hi' hi
  have hstored := (h _ (List.getElem_mem hi')).same hsame
  simp only [List.get_eq_getElem] at hrow
  rwa [hrow]

/-! ## Runs -/

/-- A version that was read can be run. -/
def ReadsExecutable : EditEvent → Prop
  | ⟨.inr (.findFirstWorkflowVersion _ _), .ok (some version)⟩ => Executable version.definition
  | _ => True

/-- The definition that a request writes can be run. -/
theorem EditJob.Plans.executable {job : EditJob} {h : EditHistory} {op : EditOp}
    {row : WorkflowVersion} (hplans : job.Plans h op) (hvalid : job.Validated)
    (hread : ∀ ev ∈ h, ReadsExecutable ev) (hadds : EditOp.Adds op row) :
    Executable row.definition := by
  have hnext : ∀ {workflow currentVersion definition},
      EditOp.Adds (nextVersion workflow currentVersion definition) row →
      definition = row.definition := fun ⟨_, hnested⟩ =>
    (Database.VersionCreateData.mk.inj (Option.some.inj hnested)).2
  cases job with
  | create workspaceId dto actorUserId =>
      subst hplans
      obtain ⟨body, hbody⟩ := hvalid
      rw [hadds.2]
      exact createWorkflowSchema_ensures body dto (ZodValidationPipe.transform_eq_ok hbody)
  | createVersion workspaceId workflowId dto =>
      obtain ⟨workflow, currentVersion, -, rfl⟩ := hplans
      obtain ⟨body, hbody⟩ := hvalid
      rw [← hnext hadds]
      exact createWorkflowVersionSchema_ensures body dto (ZodValidationPipe.transform_eq_ok hbody)
  | restoreVersion workspaceId workflowId versionId =>
      obtain ⟨workflow, currentVersion, source, -, hsource, rfl⟩ := hplans
      rw [← hnext hadds]
      exact hread _ hsource
  | updateMetadata workspaceId workflowId dto => exact hplans.elim

variable {w w' : ApiWorld}

theorem exec_readsExecutable {op : EditOp} {reply : Reply ApiError (EditOp.Result op)}
    (hexec : EditOp.exec op w reply w') (hw : w'.db.Executable) : ReadsExecutable ⟨op, reply⟩ := by
  have hthere := exec_stillThere hexec
  unfold ReadsExecutable
  split
  · rename_i heq
    rw [heq] at hthere
    exact hw _ hthere.1
  · trivial

end

section

variable [Runtime] [ProcessEnv] {init : ApiWorld → Prop} {s s' : EditPool}

/-- Any number of requests, and a column that keeps no order of keys. -/
abbrev jsonSystem : PoolSystem ApiWorld EditJob EditOp EditOp.Result ApiError :=
  editSystem fun w w' => w.db.Reordered w'.db

/-- Requests arrive through their pipes. -/
def Piped : EditPool → EditLabel → Prop
  | _, .spawn _ job => job.Validated
  | _, _ => True

/-- What is stored, and what was sent or read to be stored, can be run. -/
structure AllExecutable (s : EditPool) : Prop where
  stored : s.world.db.Executable
  validated : ∀ t th, s.threads t = some th → th.info.Validated
  read : ∀ t th, s.threads t = some th → ∀ ev ∈ th.history, ReadsExecutable ev

theorem AllExecutable.act_stored {t : Nat} {ev : EditEvent} (h : AllExecutable s)
    (hconf : s.Conform editing) (hstep : Pool.Step jsonSystem s (.act t ev) s') :
    s'.world.db.Executable := by
  obtain ⟨op, reply⟩ := ev
  obtain ⟨info, past, k, hth, hexec, -⟩ := hstep.act_cases
  by_cases happended : Appended ⟨op, reply⟩
  · obtain ⟨row, hadds, hgains⟩ := exec_of_appended hexec happended
    have hplans := ((hconf t _ hth).rest.1 happended.1).1
    have hnew := hplans.executable (h.validated t _ hth) (h.read t _ hth) hadds
    intro row' hrow'
    rw [hgains.workflowVersions, List.mem_append, List.mem_singleton] at hrow'
    rcases hrow' with hold | rfl
    · exact h.stored row' hold
    · exact hnew
  · intro row hrow
    rw [(exec_of_not_appended hexec happended).workflowVersions] at hrow
    exact h.stored row hrow

theorem AllExecutable.step {l : EditLabel} (h : AllExecutable s) (hconf : s.Conform editing)
    (hpiped : Piped s l) (hstep : Pool.Step jsonSystem s l s') : AllExecutable s' := by
  have hstored : s'.world.db.Executable := by
    cases l with
    | act t ev => exact h.act_stored hconf hstep
    | spawn t job =>
        cases hstep with
        | spawn _ hspawn => exact hspawn ▸ h.stored
    | stop t =>
        cases hstep with
        | stop _ hstop => exact hstop.elim
    | env =>
        cases hstep with
        | env henv => exact h.stored.reordered henv
  refine ⟨hstored, fun t th hth => ?_, fun t th hth => ?_⟩
  · rcases hstep.thread_cases hth with
      hold | ⟨job, rfl, -, rfl⟩ | ⟨job, past, op, k, reply, -, hold, -, rfl⟩
    · exact h.validated t th hold
    · exact hpiped
    · exact h.validated t ⟨job, past, .call op k⟩ hold
  · rcases hstep.thread_cases hth with hold | ⟨job, -, -, rfl⟩ | ⟨job, past, op, k, reply, -, hold,
      hexec, rfl⟩
    · exact h.read t th hold
    · simp
    · intro ev hev
      rcases List.mem_append.mp hev with hev | hev
      · exact h.read t _ hold ev hev
      · exact List.mem_singleton.mp hev ▸ exec_readsExecutable hexec hstored

theorem reachable_executable (hinit : ∀ w, init w → w.db.Executable)
    (hreach : Pool.Reachable jsonSystem init Piped s) : AllExecutable s := by
  induction hreach with
  | start hw => exact ⟨hinit _ hw, (fun _ _ hth => by cases hth), (fun _ _ hth => by cases hth)⟩
  | step hreach hpiped hstep ih => exact ih.step (reachable_editing hreach) hpiped hstep

/-- **Every stored definition is executable.** Whatever requests have come
through their pipes, and whatever order of keys the column returns: parsing
a stored definition again returns it, and the worker puts its nodes in order. -/
theorem stored_definitions_run (hinit : ∀ w, init w → w.db.Executable)
    (hreach : Pool.Reachable jsonSystem init Piped s) :
    ∀ row ∈ s.world.db.workflowVersions, ∀ v, row.definition.Same v →
      ∃ definition orderedNodes, workflowDefinitionSchema (some v) = .ok definition
        ∧ definition.toJson.Same row.definition
        ∧ orderWorkflowNodes definition = .ok orderedNodes
        ∧ ∀ (m : WorkflowExecutionRequestedMessage) (execution : FlowPilot.WorkflowExecution),
          execution.workflowVersion.definition = v → executeWorkflowNodes m execution = (do
            FlowPilot.ofExcept (assertNoSimulatedWorkflowFailure m)
            let finalOutput ← executeNodes m definition orderedNodes .empty m.input
            pure (executionOutput orderedNodes.length finalOutput)) := by
  intro row hrow v hv
  obtain ⟨o, written, haccept, hstored⟩ := (reachable_executable hinit hreach).stored row hrow
  obtain ⟨definition, hparsed, hsame⟩ :=
    workflowDefinitionSchema_toJson haccept (hstored.trans hv)
  obtain ⟨orderedNodes, hordered, -⟩ :=
    orderWorkflowNodes_spec (wellFormedGraph_of_accepted hparsed)
  refine ⟨definition, orderedNodes, hparsed, hsame.toJson.symm.trans hstored, hordered,
    fun m execution hdefinition => ?_⟩
  subst hdefinition
  exact executeWorkflowNodes_of_ordered (parseWorkflowDefinition_eq_ok.mpr hparsed) hordered

end

/-- A further workflow, with a definition of its own. -/
def ordersJob : EditJob :=
  .create "workspace" ⟨"Orders", "orders", none, some defaultWorkflowDefinition⟩ "user"

theorem ordersJob_validated [Runtime] : ordersJob.Validated :=
  ⟨some (.obj [("name", .str "Orders"), ("slug", .str "orders"),
    ("definition", defaultWorkflowDefinition)]), rfl⟩

/-- The workflow is created, and a version of another one restored. -/
def storedSchedule : List (Nat × Option EditJob) :=
  (0, some ordersJob) :: List.replicate 5 (0, none)
    ++ (1, some (.restoreVersion "workspace" "workflow" "version")) :: List.replicate 3 (1, none)

theorem serving_executable [Runtime] : ApiWorld.serving.db.Executable := fun row hrow => by
  obtain rfl := List.mem_singleton.mp hrow
  exact executable_default

theorem stored_definitions_run_restored :
    let _ : Runtime := .sample false
    let _ : ProcessEnv := ⟨none⟩
    ∃ s, Pool.Reachable jsonSystem (· = .serving) Piped s ∧ s.world.db.workflowVersions.length = 3
      ∧ ∀ row ∈ s.world.db.workflowVersions, ∃ definition orderedNodes,
        workflowDefinitionSchema (some row.definition) = .ok definition
          ∧ definition.toJson.Same row.definition
          ∧ orderWorkflowNodes definition = .ok orderedNodes := by
  intro _ _
  have hplay : (Pool.play EditJob.program (scriptedEdit true) 0 storedSchedule
      ApiWorld.serving.idle).any (·.world.db.workflowVersions.length = 3) = true := by
    decide +kernel
  obtain ⟨s, hplay, hcheck⟩ := (Option.any_eq_true _ _).mp hplay
  have hreach : Pool.Reachable jsonSystem (· = .serving) Piped s := by
    refine reachable_of_schedule (fun _ _ _ _ _ _ _ => trivial) hplay fun s t job hjob => ?_
    have hjobs : t = 0 ∧ job = ordersJob ∨ t = 1 ∧ job = .restoreVersion "workspace" "workflow"
        "version" := by
      simpa [storedSchedule] using hjob
    rcases hjobs with ⟨-, rfl⟩ | ⟨-, rfl⟩
    · exact ordersJob_validated
    · trivial
  refine ⟨s, hreach, by simpa using hcheck, fun row hrow => ?_⟩
  obtain ⟨definition, orderedNodes, hparsed, hsame, hordered, -⟩ :=
    stored_definitions_run (fun _ h => h ▸ serving_executable) hreach row hrow _ (.refl _)
  exact ⟨definition, orderedNodes, hparsed, hsame, hordered⟩

end Api

end FlowPilot
