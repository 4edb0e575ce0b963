import FlowPilot.Api.Atomicity
import FlowPilot.Api.Editing

/-!
# The history of a workflow

Whatever editors do at once, the versions of a workflow are numbered from 1
without gaps, and no version ever changes. An editor takes the next number
from an earlier read, so the version read is still there; if the number is
still free, it is the one after the last.

A request that fails leaves the history alone unless a call throws once the
version is written (`NoLateFailure`): `create` publishes after it has
written, and its workflow stays when that fails.
-/

namespace FlowPilot.Api

open Prog hiding pure throw bind tryCatch

/-! ## What a call adds -/

/-- The call adds a version, if it takes effect. -/
def EditOp.Appends : EditOp → Bool
  | .inl (.db (.createWorkflow _)) => true
  | .inr (.updateWorkflow _ data) => data.versions.isSome
  | _ => false

/-- A call that added a version. -/
def Appended (ev : EditEvent) : Prop :=
  EditOp.Appends ev.op = true ∧ ev.reply.applied = true

/-- The version that the call adds. -/
def EditOp.Adds : EditOp → WorkflowVersion → Prop
  | .inl (.db (.createWorkflow data)), row =>
      row.version = data.version ∧ row.definition = data.definition
  | .inr (.updateWorkflow id data), row =>
      row.workflowId = id ∧ data.versions = some ⟨row.version, row.definition⟩
  | _, _ => False

/-- The versions are the same, and so are the workflows, but for their
columns. -/
structure Database.KeepsVersions (db db' : Database) : Prop where
  workflowVersions : db'.workflowVersions = db.workflowVersions
  workflows : db'.workflows.map (·.id) = db.workflows.map (·.id)

/-- There is one more version, under a number that was free, and no workflow
more than the one it belongs to. -/
structure Database.GainsVersion (db db' : Database) (version : WorkflowVersion) : Prop where
  free : ∀ row ∈ db.workflowVersions, row.workflowId = version.workflowId →
    row.version ≠ version.version
  workflowVersions : db'.workflowVersions = db.workflowVersions ++ [version]
  workflows : ∀ workflow ∈ db'.workflows, workflow.id = version.workflowId
    ∨ ∃ old ∈ db.workflows, old.id = workflow.id

/-- What a call does to the versions when it takes effect. -/
def EditOp.Changes (op : EditOp) (db db' : Database) : Prop :=
  (EditOp.Appends op = false ∧ db.KeepsVersions db')
    ∨ EditOp.Appends op = true ∧ ∃ row, EditOp.Adds op row ∧ db.GainsVersion db' row

section

variable {w w' : ApiWorld}

theorem run_changes {op : ApiOp} {ctx : DbContext} {r : op.Result}
    (hrun : op.run ctx w = .ok (r, w')) : EditOp.Changes (.inl op) w.db w'.db := by
  cases op with
  | db c =>
      obtain ⟨db', hcall, rfl⟩ := run_db_call hrun
      cases c with
      | findFirstWorkflow id workspaceId =>
          cases hcall
          exact Or.inl ⟨rfl, rfl, rfl⟩
      | createWorkflowExecution data =>
          obtain ⟨-, hdb⟩ := Database.createWorkflowExecution_eq_ok hcall
          exact Or.inl ⟨rfl, by rw [hdb], by rw [hdb]⟩
      | createWorkflow data =>
          have hfree := Database.createWorkflow_fresh hcall
          obtain ⟨-, hdb⟩ := Database.createWorkflow_eq_ok hcall
          refine Or.inr ⟨rfl, Database.newWorkflowVersion ctx data, ⟨rfl, rfl⟩, hfree,
            by rw [hdb], fun workflow hworkflow => ?_⟩
          simp only [hdb] at hworkflow
          rcases List.mem_append.mp hworkflow with hold | hnew
          · exact Or.inr ⟨workflow, hold, rfl⟩
          · exact Or.inl (List.mem_singleton.mp hnew ▸ rfl)
  | _ =>
      cases hrun
      exact Or.inl ⟨rfl, rfl, rfl⟩

theorem EditCall.run_changes {c : EditCall} {ctx : EditContext} {db db' : Database} {r : c.Result}
    (hrun : c.run ctx db = .ok (r, db')) : EditOp.Changes (.inr c) db db' := by
  cases c with
  | updateWorkflow id data =>
      obtain ⟨-, hfree, hdb⟩ := Database.updateWorkflow_eq_ok hrun
      have hworkflows : db'.workflows.map (·.id) = db.workflows.map (·.id) := by
        rw [hdb]
        exact Table.map_update fun _ => rfl
      cases hnested : data.versions with
      | none =>
          refine Or.inl ⟨by simp [EditOp.Appends, hnested], ?_, hworkflows⟩
          simp [hdb, hnested]
      | some nested =>
          refine Or.inr ⟨by simp [EditOp.Appends, hnested],
            Database.nextWorkflowVersion ctx id nested, ⟨rfl, hnested⟩, hfree nested hnested,
            by simp [hdb, hnested], fun workflow hworkflow => Or.inr ?_⟩
          have hid := List.mem_map_of_mem (f := (·.id)) hworkflow
          rw [hworkflows] at hid
          exact List.mem_map.mp hid
  | _ =>
      cases hrun
      exact Or.inl ⟨rfl, rfl, rfl⟩

/-- A call changes the versions as it says, or it takes no effect. -/
theorem EditOp.exec_cases {op : EditOp} {reply : Reply ApiError (EditOp.Result op)}
    (hexec : EditOp.exec op w reply w') :
    (reply.applied = false ∧ w'.db = w.db)
      ∨ reply.applied = true ∧ EditOp.Changes op w.db w'.db := by
  cases op with
  | inl op =>
      obtain ⟨ctx, hexec⟩ := hexec
      cases reply with
      | ok r => exact Or.inr ⟨rfl, run_changes hexec⟩
      | lost e => exact Or.inr ⟨rfl, run_changes hexec.2.choose_spec⟩
      | failed e => exact Or.inl ⟨rfl, by rw [hexec.2]⟩
  | inr c =>
      obtain ⟨db', ⟨ctx, hexec⟩, rfl⟩ := hexec
      cases reply with
      | ok r => exact Or.inr ⟨rfl, EditCall.run_changes hexec⟩
      | lost e => exact Or.inr ⟨rfl, EditCall.run_changes hexec.2.choose_spec⟩
      | failed e => exact Or.inl ⟨rfl, hexec.2⟩

theorem exec_of_appended {op : EditOp} {reply : Reply ApiError (EditOp.Result op)}
    (hexec : EditOp.exec op w reply w') (h : Appended ⟨op, reply⟩) :
    ∃ row, EditOp.Adds op row ∧ w.db.GainsVersion w'.db row := by
  rcases EditOp.exec_cases hexec with ⟨hfailed, -⟩ | ⟨-, ⟨hop, -⟩ | ⟨-, hgains⟩⟩
  · exact absurd (hfailed.symm.trans h.2) (by simp)
  · exact absurd (hop.symm.trans h.1) (by simp)
  · exact hgains

theorem exec_of_not_appended {op : EditOp} {reply : Reply ApiError (EditOp.Result op)}
    (hexec : EditOp.exec op w reply w') (h : ¬ Appended ⟨op, reply⟩) :
    w.db.KeepsVersions w'.db := by
  rcases EditOp.exec_cases hexec with ⟨-, hsame⟩ | ⟨happlied, ⟨-, hkeeps⟩ | ⟨hop, -⟩⟩
  · exact ⟨by rw [hsame], by rw [hsame]⟩
  · exact hkeeps
  · exact absurd ⟨hop, happlied⟩ h

/-- Versions are only added. -/
theorem exec_versions {op : EditOp} {reply : Reply ApiError (EditOp.Result op)}
    (hexec : EditOp.exec op w reply w') :
    ∃ added, w'.db.workflowVersions = w.db.workflowVersions ++ added := by
  by_cases h : Appended ⟨op, reply⟩
  · obtain ⟨row, -, hgains⟩ := exec_of_appended hexec h
    exact ⟨[row], hgains.workflowVersions⟩
  · exact ⟨[], by rw [List.append_nil, (exec_of_not_appended hexec h).workflowVersions]⟩

end

/-! ## The numbers of the versions -/

/-- A further number that is free, and the first or the next after a taken
one, leaves no gap. -/
theorem perm_range'_snoc {numbers : List Nat} {n k : Nat} (h : numbers.Perm (List.range' 1 n))
    (hfree : k ∉ numbers) (hnext : k = 1 ∨ ∃ j ∈ numbers, k = j + 1) :
    (numbers ++ [k]).Perm (List.range' 1 (n + 1)) := by
  have hmem : ∀ j, j ∈ numbers ↔ 1 ≤ j ∧ j < 1 + n := fun j => by
    rw [h.mem_iff, List.mem_range'_1]
  have hk : k = 1 + n := by
    rw [hmem] at hfree
    rcases hnext with rfl | ⟨j, hj, rfl⟩
    · omega
    · rw [hmem] at hj
      omega
  rw [List.range'_concat, Nat.one_mul, ← hk]
  exact h.append_right [k]

namespace Database

variable {db db' : Database} {version : WorkflowVersion}

/-- The numbers of the versions of a workflow. -/
def versionNumbers (db : Database) (workflowId : String) : List Nat :=
  (db.workflowVersions.filter (·.workflowId = workflowId)).map (·.version)

theorem mem_versionNumbers {workflowId : String} {number : Nat} :
    number ∈ db.versionNumbers workflowId ↔ ∃ row ∈ db.workflowVersions,
      row.workflowId = workflowId ∧ row.version = number := by
  simp [versionNumbers, and_assoc]

/-- The versions of every workflow are numbered from 1 to some `n`, each
number once, and every workflow has a first version. -/
structure Numbered (db : Database) : Prop where
  contiguous : ∀ workflowId, ∃ n, (db.versionNumbers workflowId).Perm (List.range' 1 n)
  started : ∀ workflow ∈ db.workflows, 1 ∈ db.versionNumbers workflow.id

/-- The version is the first of its workflow, or the one after a version that
is there. -/
def Continues (db : Database) (version : WorkflowVersion) : Prop :=
  version.version = 1 ∨ ∃ row ∈ db.workflowVersions,
    row.workflowId = version.workflowId ∧ version.version = row.version + 1

theorem Numbered.keep (h : db.Numbered) (hkeeps : db.KeepsVersions db') : db'.Numbered := by
  have hnumbers : ∀ workflowId, db'.versionNumbers workflowId = db.versionNumbers workflowId :=
    fun workflowId => by rw [versionNumbers, hkeeps.workflowVersions, versionNumbers]
  constructor
  · intro workflowId
    rw [hnumbers]
    exact h.contiguous workflowId
  · intro workflow hworkflow
    have hid := List.mem_map_of_mem (f := (·.id)) hworkflow
    rw [hkeeps.workflows] at hid
    obtain ⟨old, hold, hid⟩ := List.mem_map.mp hid
    rw [hnumbers, ← hid]
    exact h.started old hold

theorem Numbered.gain (h : db.Numbered) (hgains : db.GainsVersion db' version)
    (hcontinues : db.Continues version) : db'.Numbered := by
  have hnumbers : ∀ workflowId, db'.versionNumbers workflowId = db.versionNumbers workflowId
      ++ if version.workflowId = workflowId then [version.version] else [] := by
    intro workflowId
    rw [versionNumbers, hgains.workflowVersions, List.filter_append, List.map_append,
      versionNumbers, List.filter_cons]
    split <;> simp_all
  have hcontiguous : ∀ workflowId, ∃ n,
      (db'.versionNumbers workflowId).Perm (List.range' 1 n) := by
    intro workflowId
    obtain ⟨n, hn⟩ := h.contiguous workflowId
    rw [hnumbers]
    split
    · rename_i hid
      subst hid
      refine ⟨n + 1, perm_range'_snoc hn ?_ ?_⟩
      · rintro htaken
        obtain ⟨row, hrow, hid, hversion⟩ := mem_versionNumbers.mp htaken
        exact hgains.free row hrow hid hversion
      · refine hcontinues.imp_right fun ⟨row, hrow, hid, hversion⟩ => ?_
        exact ⟨row.version, mem_versionNumbers.mpr ⟨row, hrow, hid, rfl⟩, hversion⟩
    · exact ⟨n, by rwa [List.append_nil]⟩
  refine ⟨hcontiguous, fun workflow hworkflow => ?_⟩
  rcases hgains.workflows workflow hworkflow with hid | ⟨old, hold, hid⟩
  · -- its numbers are 1 to some `n`, and the new one is among them
    obtain ⟨n, hn⟩ := hcontiguous workflow.id
    have hnew : version.version ∈ db'.versionNumbers workflow.id := by
      rw [hnumbers, if_pos hid.symm]
      exact List.mem_append_right _ (List.mem_singleton_self _)
    rw [hn.mem_iff, List.mem_range'_1] at hnew ⊢
    omega
  · rw [hnumbers, ← hid]
    exact List.mem_append_left _ (h.started old hold)

end Database

/-! ## What a request does -/

/-- The request looked the workflow up and found the version current. -/
def Found (h : EditHistory) (workspaceId workflowId : String)
    (workflow : WorkflowWithCurrentVersion) (currentVersion : WorkflowVersion) : Prop :=
  ⟨.inl (.db (.findFirstWorkflow workflowId workspaceId)), .ok (some workflow)⟩ ∈ h
    ∧ currentVersion ∈ workflow.versions

/-- The call that adds the next version. -/
def nextVersion (workflow : WorkflowWithCurrentVersion) (currentVersion : WorkflowVersion)
    (definition : Json) : EditOp :=
  .inr (.updateWorkflow workflow.id
    ⟨none, none, none, none, some ⟨currentVersion.version + 1, definition⟩⟩)

/-- The calls by which a request may add a version. -/
def EditJob.Plans (h : EditHistory) (op : EditOp) : EditJob → Prop
  | .create workspaceId dto _ => op = .inl (.db (.createWorkflow (draftWorkflow workspaceId dto)))
  | .createVersion workspaceId workflowId dto => ∃ workflow currentVersion,
      Found h workspaceId workflowId workflow currentVersion
        ∧ op = nextVersion workflow currentVersion dto.definition
  | .restoreVersion workspaceId workflowId versionId =>
      ∃ workflow currentVersion sourceVersion,
        Found h workspaceId workflowId workflow currentVersion
        ∧ ⟨.inr (.findFirstWorkflowVersion versionId workflowId), .ok (some sourceVersion)⟩ ∈ h
        ∧ op = nextVersion workflow currentVersion sourceVersion.definition
  | .updateMetadata _ _ _ => False

/-- The requests that add a version when they succeed. -/
def EditJob.Writes : EditJob → Prop
  | .updateMetadata _ _ _ => False
  | _ => True

/-- A write that adds a version answers with it. -/
def AnswersVersion (ev : EditEvent) : Prop :=
  EditOp.Appends ev.op = true → match ev with
    | ⟨.inl (.db (.createWorkflow _)), .ok workflow⟩ => ∃ version, workflow.versions = [version]
    | ⟨.inr (.updateWorkflow _ _), .ok workflow⟩ => ∃ version, workflow.versions = [version]
    | _ => True

/-- If the call throws, no version has been added, by it neither. -/
def Timely (h : EditHistory) (ev : EditEvent) : Prop :=
  ev.reply.answered = false → ∀ ev' ∈ h ++ [ev], ¬ Appended ev'

/-- A request adds at most one version, as it plans to. One that returns has
added it, and one that throws has not, if its calls throw in time. -/
def editing : Pool.Discipline EditJob EditOp EditOp.Result ApiError where
  assumption _ _ ev := AnswersVersion ev
  obligation info h op :=
    EditOp.Appends op = true → info.Plans h op ∧ ∀ ev ∈ h, ¬ Appended ev
  returned info h := info.Writes → ∃ ev ∈ h, Appended ev
  threw _ h := Along Timely [] h → ∀ ev ∈ h, ¬ Appended ev

/-- A request that made no write. -/
theorem not_appended_of_ops {h : EditHistory}
    (hops : ∀ ev ∈ h, EditOp.Appends ev.op = false) : ∀ ev ∈ h, ¬ Appended ev :=
  fun ev hev happended => absurd (happended.1.symm.trans (hops ev hev)) (by simp)

/-- A request whose write is its last call, or is followed by a call that
throws. -/
theorem not_appended_of_timely {first rest : EditHistory} {ev : EditEvent}
    (htimely : Along Timely [] (first ++ ev :: rest)) (hthrew : ev.reply.answered = false) :
    ∀ ev' ∈ first ++ [ev], ¬ Appended ev' := by
  have hev := (along_append.mp htimely).2.1 hthrew
  simpa using hev

section

variable [Runtime] [ProcessEnv] {h : EditHistory}

/-- What a request keeps to from some history on. -/
def EditJob.KeepsTo (job : EditJob) {α : Type} (p : EditRequest α) (h : EditHistory) : Prop :=
  wp (fun _ ev => AnswersVersion ev) (editing.obligation job) p h
    (fun _ => editing.returned job) (fun _ => editing.threw job)

omit [Runtime] [ProcessEnv] in
theorem rethrowConflict_keeps {job : EditJob} {α : Type} {e : ApiError}
    (hthrew : editing.threw job h) :
    job.KeepsTo (EditRequest.lift (rethrowConflict e : Request α)) h := by
  obtain ⟨e', he'⟩ := rethrowConflict_throws (α := α) e
  rw [he']
  exact hthrew

omit [Runtime] [ProcessEnv] in
/-- A call that threw at once, after others that write nothing. -/
theorem threw_of_call {job : EditJob} {op : EditOp} {reply : Reply ApiError (EditOp.Result op)}
    (hthrew : reply.answered = false) : editing.threw job (h ++ [⟨op, reply⟩]) :=
  fun htimely => not_appended_of_timely htimely hthrew

/-- `create` among the calls of the edits. -/
theorem lift_create (workspaceId : String) (dto : CreateWorkflowDto) (actorUserId : String) :
    EditRequest.lift (Api.create workspaceId dto actorUserId)
      = Prog.tryCatch
        (@Prog.perform EditOp EditOp.Result ApiError
            (.inl (.db (.createWorkflow (draftWorkflow workspaceId dto))))
          >>= fun workflow => EditRequest.lift (announceWorkflow actorUserId workflow))
        (fun error => EditRequest.lift (rethrowConflict error)) := by
  rw [EditRequest.lift, Api.create, inl_tryCatch]
  exact congrArg (Prog.tryCatch · _) inl_perform_bind

omit [Runtime] [ProcessEnv] in
/-- Publishing adds no version. -/
theorem not_appends_of_createsNothing {op : EditOp}
    (hop : Sum.elim CreatesNothing (fun _ => False) op) : EditOp.Appends op = false := by
  cases op with
  | inr c => exact hop.elim
  | inl op =>
      cases op with
      | db c =>
          cases c with
          | createWorkflow data => exact absurd trivial hop
          | _ => rfl
      | _ => rfl

theorem create_keeps (workspaceId : String) (dto : CreateWorkflowDto) (actorUserId : String) :
    (EditJob.create workspaceId dto actorUserId).KeepsTo
      (EditRequest.lift (Api.create workspaceId dto actorUserId)) [] := by
  rw [lift_create]
  refine wp_tryCatch (wp_bind (wp_perform (fun _ => ⟨rfl, by simp⟩)
    (fun workflow hanswers => ?_)
    (fun _ _ => rethrowConflict_keeps (threw_of_call rfl))
    fun _ _ => rethrowConflict_keeps (threw_of_call rfl)))
  refine wp_mono (fun response h' => ?_) (fun e h' => ?_)
    (wp_of_spec (spec_inl (announceWorkflow_propagates actorUserId (hanswers rfl)))
      fun events op _ hop => ?_)
  · rintro ⟨events, rfl, -⟩ -
    exact ⟨_, List.mem_append_left _ (List.mem_singleton_self _), rfl, rfl⟩
  · rintro ⟨events, rfl, -, events', rfl, ev, hev, hthrew⟩
    refine rethrowConflict_keeps fun htimely => ?_
    obtain ⟨before, after, rfl⟩ := List.append_of_mem hev
    rw [List.map_append, List.map_cons, ← List.append_assoc] at htimely
    have hlate := not_appended_of_timely htimely hthrew
    exact (hlate _ (List.mem_append_left _ (List.mem_append_left _
      (List.mem_singleton_self _))) ⟨rfl, rfl⟩).elim
  · exact fun happends => absurd happends (by simp [not_appends_of_createsNothing hop])

omit [Runtime] [ProcessEnv] in
/-- A workflow that comes with a version has a response. -/
theorem response_keeps {job : EditJob} {workflow : WorkflowWithCurrentVersion}
    (hversion : ∃ version, workflow.versions = [version]) (hreturned : editing.returned job h) :
    job.KeepsTo (EditRequest.lift (ofExcept (toWorkflowResponse workflow))) h := by
  obtain ⟨version, hversion⟩ := hversion
  simp only [toWorkflowResponse, hversion]
  exact hreturned

omit [Runtime] [ProcessEnv] in
/-- The end of a request that adds a version. -/
theorem appendVersion_keeps {job : EditJob} {workflow : WorkflowWithCurrentVersion}
    {currentVersion : WorkflowVersion} {definition : Json}
    (hplans : job.Plans h (nextVersion workflow currentVersion definition))
    (hnone : ∀ ev ∈ h, ¬ Appended ev) :
    job.KeepsTo (EditRequest.appendVersion workflow currentVersion definition) h := by
  refine wp_bind (wp_perform (fun _ => ⟨hplans, hnone⟩) (fun updated hanswers => ?_)
    (fun _ _ => threw_of_call rfl) fun _ _ => threw_of_call rfl)
  refine response_keeps (hanswers rfl) fun _ => ?_
  exact ⟨_, List.mem_append_right _ (List.mem_singleton_self _), rfl, rfl⟩

omit [Runtime] [ProcessEnv] in
theorem createVersion_keeps (workspaceId workflowId : String) (dto : CreateWorkflowVersionDto) :
    (EditJob.createVersion workspaceId workflowId dto).KeepsTo
      (EditRequest.createVersion workspaceId workflowId dto) [] := by
  refine wp_bind (wp_perform (fun h => by cases h) (fun found _ => ?_)
    (fun _ _ => threw_of_call rfl) fun _ _ => threw_of_call rfl)
  have hnone : ∀ ev ∈ [⟨.inl (.db (.findFirstWorkflow workflowId workspaceId)), .ok found⟩],
      ¬ Appended ev := not_appended_of_ops (by simp [EditOp.Appends])
  cases found with
  | none => exact fun _ => hnone
  | some workflow =>
      dsimp only
      cases hversions : workflow.versions with
      | nil => exact fun _ => hnone
      | cons currentVersion older =>
          refine appendVersion_keeps ⟨workflow, currentVersion, ⟨?_, ?_⟩, rfl⟩ hnone
          · exact List.mem_singleton_self _
          · exact hversions ▸ List.mem_cons_self

omit [Runtime] [ProcessEnv] in
theorem restoreVersion_keeps (workspaceId workflowId versionId : String) :
    (EditJob.restoreVersion workspaceId workflowId versionId).KeepsTo
      (EditRequest.restoreVersion workspaceId workflowId versionId) [] := by
  refine wp_bind (wp_perform (fun h => by cases h) (fun found _ => ?_)
    (fun _ _ => threw_of_call rfl) fun _ _ => threw_of_call rfl)
  cases found with
  | none => exact fun _ => not_appended_of_ops (by simp [EditOp.Appends])
  | some workflow =>
      refine wp_bind (wp_perform (fun h => by cases h) (fun source _ => ?_)
        (fun _ _ => threw_of_call rfl) fun _ _ => threw_of_call rfl)
      have hnone : ∀ ev ∈ [⟨.inl (.db (.findFirstWorkflow workflowId workspaceId)),
          .ok (some workflow)⟩,
          ⟨.inr (.findFirstWorkflowVersion versionId workflowId), .ok source⟩],
          ¬ Appended ev := not_appended_of_ops (by simp [EditOp.Appends])
      cases source with
      | none => exact fun _ => hnone
      | some sourceVersion =>
          dsimp only
          cases hversions : workflow.versions with
          | nil => exact fun _ => hnone
          | cons currentVersion older =>
              refine appendVersion_keeps
                ⟨workflow, currentVersion, sourceVersion, ⟨?_, ?_⟩, ?_, rfl⟩ hnone
              · exact List.mem_append_left _ (List.mem_singleton_self _)
              · exact hversions ▸ List.mem_cons_self
              · exact List.mem_append_right _ (List.mem_singleton_self _)

omit [Runtime] [ProcessEnv] in
/-- Metadata are edited without a write that adds a version. -/
theorem updateMetadata_keeps (workspaceId workflowId : String) (dto : UpdateWorkflowDto) :
    (EditJob.updateMetadata workspaceId workflowId dto).KeepsTo
      (EditRequest.updateMetadata workspaceId workflowId dto) [] := by
  refine wp_bind (wp_bind (wp_perform (fun h => by cases h) (fun found _ => ?_)
    (fun _ _ => threw_of_call rfl) fun _ _ => threw_of_call rfl))
  cases found with
  | none => exact fun _ => not_appended_of_ops (by simp [EditOp.Appends])
  | some id =>
      refine wp_tryCatch (wp_bind (wp_perform (fun h => by cases h) (fun updated _ => ?_)
        (fun _ _ => rethrowConflict_keeps (threw_of_call rfl))
        fun _ _ => rethrowConflict_keeps (threw_of_call rfl)))
      cases hresponse : toWorkflowResponse updated with
      | ok response => exact fun hwrites => hwrites.elim
      | error e =>
          exact rethrowConflict_keeps fun _ => not_appended_of_ops (by simp [EditOp.Appends])

theorem editProgram_keeps (job : EditJob) : editing.Keeps job job.program [] := by
  refine wp_bind ?_
  cases job with
  | create workspaceId dto actorUserId => exact create_keeps workspaceId dto actorUserId
  | createVersion workspaceId workflowId dto =>
      exact createVersion_keeps workspaceId workflowId dto
  | restoreVersion workspaceId workflowId versionId =>
      exact restoreVersion_keeps workspaceId workflowId versionId
  | updateMetadata workspaceId workflowId dto =>
      exact updateMetadata_keeps workspaceId workflowId dto

end

/-! ## Runs -/

section

variable {op : EditOp} {reply : Reply ApiError (EditOp.Result op)} {w w' : ApiWorld}

theorem exec_answersVersion (hexec : EditOp.exec op w reply w') : AnswersVersion ⟨op, reply⟩ := by
  intro happends
  split
  · rename_i data workflow heq
    cases heq
    obtain ⟨ctx, hrun⟩ := hexec
    obtain ⟨db', hcall, -⟩ := run_db_call hrun
    exact Database.createWorkflow_versions hcall
  · rename_i id data workflow heq
    cases heq
    obtain ⟨db', ⟨ctx, hrun⟩, -⟩ := hexec
    exact Database.updateWorkflow_versions hrun happends
  · trivial

/-- What a request has read is still there. -/
def StillThere (db : Database) : EditEvent → Prop
  | ⟨.inl (.db (.findFirstWorkflow id _)), .ok (some workflow)⟩ => workflow.id = id
      ∧ ∀ version ∈ workflow.versions, version ∈ db.workflowVersions ∧ version.workflowId = id
  | ⟨.inr (.findFirstWorkflowVersion id workflowId), .ok (some version)⟩ =>
      version ∈ db.workflowVersions ∧ version.id = id ∧ version.workflowId = workflowId
  | _ => True

theorem StillThere.mono {db db' : Database} {ev : EditEvent} (h : StillThere db ev)
    (hkept : db.workflowVersions ⊆ db'.workflowVersions) : StillThere db' ev := by
  unfold StillThere at h ⊢
  split at h
  · exact ⟨h.1, fun version hversion => (h.2 version hversion).imp_left (hkept ·)⟩
  · exact ⟨hkept h.1, h.2⟩
  · trivial

/-- What a request reads is there. -/
theorem exec_stillThere (hexec : EditOp.exec op w reply w') : StillThere w'.db ⟨op, reply⟩ := by
  unfold StillThere
  split
  · rename_i id workspaceId workflow heq
    cases heq
    obtain ⟨ctx, hrun⟩ := hexec
    obtain ⟨db', hcall, rfl⟩ := run_db_call hrun
    obtain ⟨hfound, rfl⟩ := Prod.mk.inj (Except.ok.inj hcall)
    obtain ⟨row, hrow, rfl⟩ := Option.map_eq_some_iff.mp hfound
    have hid : row.id = id ∧ row.workspaceId = workspaceId := by
      simpa using List.find?_some hrow
    refine ⟨hid.1, fun version hversion => ?_⟩
    have hmem := (Database.mem_findManyWorkflowVersion _ _).mp (List.mem_of_mem_take hversion)
    exact ⟨hmem.1, hmem.2.trans hid.1⟩
  · rename_i id workflowId version heq
    cases heq
    obtain ⟨db', ⟨ctx, hrun⟩, rfl⟩ := hexec
    obtain ⟨hfound, rfl⟩ := Prod.mk.inj (Except.ok.inj hrun)
    exact ⟨List.mem_of_find?_eq_some hfound, by simpa using List.find?_some hfound⟩
  · trivial

/-- The version that a request adds. -/
def EditJob.Wrote (versions : List WorkflowVersion) (row : WorkflowVersion) : EditJob → Prop
  | .create _ dto _ => row.version = 1 ∧ row.definition = getInitialDefinition dto.definition
  | .createVersion _ workflowId dto =>
      row.workflowId = workflowId ∧ row.definition = dto.definition
  | .restoreVersion _ workflowId versionId => row.workflowId = workflowId
      ∧ ∃ source ∈ versions, source.id = versionId ∧ source.workflowId = workflowId
        ∧ row.definition = source.definition
  | .updateMetadata _ _ _ => False

theorem EditJob.Wrote.mono {job : EditJob} {versions versions' : List WorkflowVersion}
    {row : WorkflowVersion} (h : job.Wrote versions row) (hkept : versions ⊆ versions') :
    job.Wrote versions' row := by
  cases job with
  | restoreVersion workspaceId workflowId versionId =>
      obtain ⟨hid, source, hsource, hdefinition⟩ := h
      exact ⟨hid, source, hkept hsource, hdefinition⟩
  | _ => exact h

/-- A version that is added as planned continues the history, and is the one
the request is for. -/
theorem EditJob.Plans.adds {job : EditJob} {h : EditHistory} {db : Database}
    {row : WorkflowVersion} (hplans : job.Plans h op) (hthere : ∀ ev ∈ h, StillThere db ev)
    (hadds : EditOp.Adds op row) : db.Continues row ∧ job.Wrote db.workflowVersions row := by
  have hnext : ∀ {workspaceId workflowId workflow currentVersion definition},
      Found h workspaceId workflowId workflow currentVersion →
      EditOp.Adds (nextVersion workflow currentVersion definition) row →
      db.Continues row ∧ row.workflowId = workflowId ∧ row.definition = definition := by
    rintro workspaceId workflowId workflow currentVersion definition ⟨hread, hcurrent⟩
      ⟨hid, hnested⟩
    obtain ⟨hworkflow, hversions⟩ := hthere _ hread
    obtain ⟨hmem, hversion⟩ := hversions currentVersion hcurrent
    obtain ⟨hnumber, hdefinition⟩ := Database.VersionCreateData.mk.inj (Option.some.inj hnested)
    have hrow := hid.trans hworkflow
    exact ⟨Or.inr ⟨currentVersion, hmem, hversion.trans hrow.symm, hnumber.symm⟩, hrow,
      hdefinition.symm⟩
  cases job with
  | create workspaceId dto actorUserId =>
      subst hplans
      exact ⟨Or.inl hadds.1, hadds⟩
  | createVersion workspaceId workflowId dto =>
      obtain ⟨workflow, currentVersion, hfound, rfl⟩ := hplans
      exact hnext hfound hadds
  | restoreVersion workspaceId workflowId versionId =>
      obtain ⟨workflow, currentVersion, source, hfound, hsource, rfl⟩ := hplans
      obtain ⟨hcontinues, hrow, hdefinition⟩ := hnext hfound hadds
      obtain ⟨hmem, hid, hworkflow⟩ := hthere _ hsource
      exact ⟨hcontinues, hrow, source, hmem, hid, hworkflow, hdefinition⟩
  | updateMetadata workspaceId workflowId dto => exact hplans.elim

end

section

variable [Runtime] [ProcessEnv] {w : ApiWorld} {init : ApiWorld → Prop} {s s' : EditPool}
  {l : EditLabel} {C : EditPool → EditLabel → Prop}

/-- Nothing but the requests changes the database. -/
abbrev closedSystem : PoolSystem ApiWorld EditJob EditOp EditOp.Result ApiError :=
  editSystem fun _ _ => False

theorem reachable_editing {env : ApiWorld → ApiWorld → Prop}
    (hreach : Pool.Reachable (editSystem env) init C s) : s.Conform editing :=
  (Pool.Reachable.invariant editing (fun _ => True) editProgram_keeps (fun _ _ => trivial)
    (fun _ _ _ _ _ _ _ _ _ _ _ _ hexec => exec_answersVersion hexec)
    (fun _ _ _ _ _ _ _ _ => trivial) hreach).2

/-- A step adds versions and changes none. -/
theorem step_versions (hstep : Pool.Step closedSystem s l s') :
    s.world.db.workflowVersions <+: s'.world.db.workflowVersions := by
  cases hstep with
  | act _ hexec =>
      obtain ⟨added, hadded⟩ := exec_versions hexec
      exact hadded ▸ List.prefix_append _ _
  | spawn _ hspawn => exact hspawn ▸ List.prefix_refl _
  | stop _ hstop => exact hstop.elim
  | env henv => exact henv.elim

theorem run_versions {labels : List EditLabel} (hrun : Pool.Run closedSystem C s labels s') :
    s.world.db.workflowVersions <+: s'.world.db.workflowVersions := by
  induction hrun with
  | refl => exact List.prefix_refl _
  | step _ _ hstep ih => exact ih.trans (step_versions hstep)

theorem reachable_stillThere (hreach : Pool.Reachable closedSystem init C s) {t : Nat}
    {th : Thread EditJob EditOp EditOp.Result ApiError} (hth : s.threads t = some th) :
    ∀ ev ∈ th.history, StillThere s.world.db ev := by
  have halong := Pool.Reachable.along (F := fun w _ ev => StillThere w.db ev)
    (fun _ _ hstep _ _ h => h.mono (step_versions hstep).subset)
    (fun _ _ _ hstep => by
      obtain ⟨_, _, _, -, hexec, -⟩ := hstep.act_cases
      exact exec_stillThere hexec) hreach t th hth
  intro ev hev
  obtain ⟨_, _, -, hthere⟩ := halong.mem hev
  exact hthere

/-- A version that a thread adds continues the history, and is the one the
thread is for. -/
theorem reachable_adds (hreach : Pool.Reachable closedSystem init C s) {t : Nat} {info : EditJob}
    {h : EditHistory} {op : EditOp} {k : Except ApiError (EditOp.Result op) → EditRequest Unit}
    (hth : s.threads t = some ⟨info, h, .call op k⟩) (hop : EditOp.Appends op = true)
    {row : WorkflowVersion} (hadds : EditOp.Adds op row) :
    s.world.db.Continues row ∧ info.Wrote s.world.db.workflowVersions row :=
  (((reachable_editing hreach) t _ hth).rest.1 hop).1.adds (reachable_stillThere hreach hth) hadds

/-- **The numbers have no gap**, whatever the editors do. -/
theorem reachable_numbered (hinit : ∀ w, init w → w.db.Numbered)
    (hreach : Pool.Reachable closedSystem init C s) : s.world.db.Numbered := by
  induction hreach with
  | start hw => exact hinit _ hw
  | step hreach _ hstep ih =>
      cases hstep with
      | @act w w' threads t info h op k reply hth hexec =>
          by_cases happended : Appended ⟨op, reply⟩
          · obtain ⟨row, hadds, hgains⟩ := exec_of_appended hexec happended
            exact ih.gain hgains (reachable_adds hreach hth happended.1 hadds).1
          · exact ih.keep (exec_of_not_appended hexec happended)
      | spawn _ hspawn => exact hspawn ▸ ih
      | stop _ hstop => exact hstop.elim
      | env henv => exact henv.elim

/-! ### What each request has added -/

/-- The versions that were added. -/
def AddsVersions (w w' : ApiWorld) (added : List WorkflowVersion) : Prop :=
  w'.db.workflowVersions = w.db.workflowVersions ++ added

/-- What the book of a thread says: nothing so far, or the one version that
the thread is for. -/
def Booked (versions : List WorkflowVersion) (rows : List WorkflowVersion)
    (th : Thread EditJob EditOp EditOp.Result ApiError) : Prop :=
  (rows = [] ∧ ∀ ev ∈ th.history, ¬ Appended ev)
    ∨ ∃ row, rows = [row] ∧ th.info.Wrote versions row ∧ ∃ ev ∈ th.history, Appended ev

omit [Runtime] [ProcessEnv] in
theorem Booked.mono {versions versions' rows : List WorkflowVersion}
    {th : Thread EditJob EditOp EditOp.Result ApiError} (h : Booked versions rows th)
    (hkept : versions ⊆ versions') : Booked versions' rows th :=
  h.imp_right fun ⟨row, hrows, hwrote, hev⟩ => ⟨row, hrows, hwrote.mono hkept, hev⟩

/-- The books of all threads, and the versions that were there at the start,
make up the versions that are there. -/
structure Balanced (start : List WorkflowVersion) (s : EditPool)
    (book : Nat → List WorkflowVersion) : Prop where
  idle : ∀ t, s.threads t = none → book t = []
  booked : ∀ t th, s.threads t = some th → Booked s.world.db.workflowVersions (book t) th
  complete : ∀ row ∈ s.world.db.workflowVersions, row ∈ start ∨ ∃ t, row ∈ book t

/-- A call goes into the book of its thread. -/
theorem Booked.call {rows added : List WorkflowVersion} {t : Nat} {info : EditJob}
    {h : EditHistory} {op : EditOp} {reply : Reply ApiError (EditOp.Result op)}
    {k : Except ApiError (EditOp.Result op) → EditRequest Unit} {q : EditRequest Unit}
    {w' : ApiWorld} (hbooked : Booked s.world.db.workflowVersions rows ⟨info, h, .call op k⟩)
    (hreach : Pool.Reachable closedSystem init C s)
    (hth : s.threads t = some ⟨info, h, .call op k⟩) (hexec : EditOp.exec op s.world reply w')
    (hadded : AddsVersions s.world w' added) :
    Booked w'.db.workflowVersions (rows ++ added) ⟨info, h ++ [⟨op, reply⟩], q⟩ := by
  have hkept : s.world.db.workflowVersions ⊆ w'.db.workflowVersions :=
    hadded ▸ List.subset_append_left _ _
  by_cases happended : Appended ⟨op, reply⟩
  · obtain ⟨row, hadds, hgains⟩ := exec_of_appended hexec happended
    obtain rfl : added = [row] :=
      List.append_cancel_left (hadded.symm.trans hgains.workflowVersions)
    have hwrote := (reachable_adds hreach hth happended.1 hadds).2
    -- the thread has not written before
    have hfirst := ((reachable_editing hreach t _ hth).rest.1 happended.1).2
    rcases hbooked with ⟨rfl, -⟩ | ⟨_, -, -, ev, hev, hbefore⟩
    · exact Or.inr ⟨row, rfl, hwrote.mono hkept, _,
        List.mem_append_right _ (List.mem_singleton_self _), happended⟩
    · exact absurd hbefore (hfirst ev hev)
  · have hsame := (exec_of_not_appended hexec happended).workflowVersions
    obtain rfl : added = [] := by
      simpa [AddsVersions, hsame] using hadded
    rw [List.append_nil]
    rcases hbooked with ⟨hnone, hevs⟩ | ⟨row, hrows, hwrote, ev, hev, hbefore⟩
    · refine Or.inl ⟨hnone, fun ev hev => ?_⟩
      rcases List.mem_append.mp hev with hev | hev
      · exact hevs ev hev
      · exact List.mem_singleton.mp hev ▸ happended
    · exact Or.inr ⟨row, hrows, hwrote.mono hkept, ev, List.mem_append_left _ hev, hbefore⟩

theorem Balanced.act {start : List WorkflowVersion} {book : Nat → List WorkflowVersion} {t : Nat}
    {ev : EditEvent} {added : List WorkflowVersion} (hbalanced : Balanced start s book)
    (hreach : Pool.Reachable closedSystem init C s)
    (hstep : Pool.Step closedSystem s (.act t ev) s')
    (hadded : AddsVersions s.world s'.world added) :
    Balanced start s' (Function.update book t (book t ++ added)) := by
  obtain ⟨op, reply⟩ := ev
  obtain ⟨info, h, k, hth, hexec, hthreads⟩ := hstep.act_cases
  refine ⟨fun t' hnone => ?_, fun t' th hth' => ?_, fun row hrow => ?_⟩
  · rw [hthreads] at hnone
    by_cases ht : t' = t
    · subst ht
      simp at hnone
    · rw [Function.update_of_ne ht] at hnone ⊢
      exact hbalanced.idle t' hnone
  · rw [hthreads] at hth'
    by_cases ht : t' = t
    · subst ht
      rw [Function.update_self] at hth' ⊢
      obtain rfl := Option.some.inj hth'
      exact (hbalanced.booked t' _ hth).call hreach hth hexec hadded
    · rw [Function.update_of_ne ht] at hth' ⊢
      exact (hbalanced.booked t' th hth').mono (step_versions hstep).subset
  · rw [hadded] at hrow
    rcases List.mem_append.mp hrow with hold | hnew
    · refine (hbalanced.complete row hold).imp_right fun ⟨t', ht'⟩ => ⟨t', ?_⟩
      by_cases ht : t' = t
      · subst ht
        exact Function.update_self t' _ book ▸ List.mem_append_left _ ht'
      · rwa [Function.update_of_ne ht]
    · exact Or.inr ⟨t, Function.update_self t _ book ▸ List.mem_append_right _ hnew⟩

theorem Balanced.spawn {start : List WorkflowVersion} {book : Nat → List WorkflowVersion} {t : Nat}
    {info : EditJob} (hbalanced : Balanced start s book)
    (hstep : Pool.Step closedSystem s (.spawn t info) s') : Balanced start s' book := by
  cases hstep with
  | @spawn w w' threads t info hnone hspawn =>
      obtain rfl : w' = w := hspawn
      refine ⟨fun t' hnone' => ?_, fun t' th hth => ?_, hbalanced.complete⟩
      · by_cases ht : t' = t
        · exact ht ▸ hbalanced.idle t hnone
        · exact hbalanced.idle t' (by simpa [ht] using hnone')
      · by_cases ht : t' = t
        · subst ht
          simp only [Function.update_self, Option.some.injEq] at hth
          subst hth
          exact Or.inl ⟨hbalanced.idle t' hnone, by simp⟩
        · exact hbalanced.booked t' th (by simpa [ht] using hth)

theorem ledger_balanced {book : Nat → List WorkflowVersion}
    (hledger : Pool.Ledger closedSystem C AddsVersions w.idle s book) :
    Balanced w.db.workflowVersions s book := by
  induction hledger with
  | refl => exact ⟨fun _ _ => rfl, (fun _ _ hth => by cases hth), fun _ hrow => Or.inl hrow⟩
  | @act s₁ _ _ _ _ _ hledger _ hstep hadded ih =>
      have hreach : Pool.Reachable closedSystem (· = w) C s₁ := hledger.reachable (.start rfl)
      exact ih.act hreach hstep hadded
  | @other s₁ s₂ book l _ _ hstep hl ih =>
      cases l with
      | act t ev => exact absurd rfl (hl t ev)
      | spawn t info => exact ih.spawn hstep
      | stop t =>
          cases hstep with
          | stop _ hstop => exact hstop.elim
      | env =>
          cases hstep with
          | env henv => exact henv.elim

/-- No call throws once its thread has added a version, the one that added it
neither. -/
def NoLateFailure (s : EditPool) : EditLabel → Prop
  | .act t ev => ∀ th, s.threads t = some th → Timely th.history ev
  | _ => True

/-- The history after a run with what each request has added: it has no gaps
and no later step changes a version; a request that failed has added nothing,
and one that succeeded the one version it is for. -/
structure VersionHistory (start : List WorkflowVersion) (s : EditPool)
    (book : Nat → List WorkflowVersion) : Prop where
  numbered : s.world.db.Numbered
  complete : ∀ row ∈ s.world.db.workflowVersions, row ∈ start ∨ ∃ t, row ∈ book t
  unchanged : ∀ labels s', Pool.Run closedSystem (fun _ _ => True) s labels s' →
    s.world.db.workflowVersions <+: s'.world.db.workflowVersions
  failed : ∀ t info h e, s.threads t = some ⟨info, h, .throw e⟩ → book t = []
  succeeded : ∀ t info h, s.threads t = some ⟨info, h, .pure ()⟩ → info.Writes →
    ∃ row, book t = [row] ∧ info.Wrote s.world.db.workflowVersions row

/-- **The version history.** As long as no call throws once its request has
added a version, in every interleaving of edits. -/
theorem version_history {book : Nat → List WorkflowVersion} (hw : w.db.Numbered)
    (hledger : Pool.Ledger closedSystem NoLateFailure AddsVersions w.idle s book) :
    VersionHistory w.db.workflowVersions s book := by
  have hreach : Pool.Reachable closedSystem (· = w) NoLateFailure s :=
    hledger.reachable (.start rfl)
  have hinit : ∀ w', w' = w → w'.db.Numbered := fun _ h => h ▸ hw
  have hbalanced := ledger_balanced hledger
  refine ⟨reachable_numbered hinit hreach, hbalanced.complete, fun _ _ => run_versions,
    fun t info h e hth => ?_, fun t info h hth hwrites => ?_⟩
  · have htimely : Along Timely [] h := Pool.Reachable.along (F := fun _ h ev => Timely h ev)
      (fun _ _ _ _ _ htimely => htimely)
      (fun _ hc hth _ => hc _ hth) hreach t _ hth
    have hnone := (reachable_editing hreach t _ hth).rest htimely
    rcases hbalanced.booked t _ hth with ⟨hempty, -⟩ | ⟨_, -, -, ev, hev, happended⟩
    · exact hempty
    · exact absurd happended (hnone ev hev)
  · obtain ⟨ev, hev, happended⟩ := (reachable_editing hreach t _ hth).rest hwrites
    rcases hbalanced.booked t _ hth with ⟨-, hnone⟩ | ⟨row, hrow, hwrote, -⟩
    · exact absurd happended (hnone ev hev)
    · exact ⟨row, hrow, hwrote⟩

end

/-! ### Editors with and without a broker -/

/-- Calls take effect and answer, apart from the connection to a broker that
is down. -/
def scriptedEdit (brokerUp : Bool) (i : Nat) (op : EditOp) (w : ApiWorld) :
    Option (Reply ApiError (EditOp.Result op) × ApiWorld) :=
  match op with
  | .inl op => scriptedRequest brokerUp i op w
  | .inr c =>
      match c.run ⟨requestContext i, true⟩ w.db with
      | .ok (r, db') => some (.ok r, { w with db := db' })
      | .error _ => none

theorem scriptedEdit_sound {brokerUp : Bool} (i : Nat) (op : EditOp) (w : ApiWorld)
    (reply : Reply ApiError (EditOp.Result op)) (w' : ApiWorld)
    (h : scriptedEdit brokerUp i op w = some (reply, w')) : EditOp.exec op w reply w' := by
  cases op with
  | inl op => exact scriptedRequest_sound i op w reply w' h
  | inr c =>
      unfold scriptedEdit at h
      dsimp only at h
      split at h
      · rename_i r db' hrun
        cases h
        exact ⟨db', ⟨_, hrun⟩, rfl⟩
      · cases h

/-- With the broker up every call answers. -/
theorem scriptedEdit_answered {i : Nat} {op : EditOp} {w w' : ApiWorld}
    {reply : Reply ApiError (EditOp.Result op)}
    (h : scriptedEdit true i op w = some (reply, w')) : reply.answered = true := by
  cases op with
  | inl op =>
      simp only [scriptedEdit, scriptedRequest] at h
      split at h
      · cases h
        rfl
      · split at h
        · cases h
          rfl
        · cases h
  | inr c =>
      simp only [scriptedEdit] at h
      split at h
      · cases h
        rfl
      · cases h

/-- What a schedule of edits leads to is reachable. -/
theorem reachable_of_schedule [Runtime] [ProcessEnv] {env : ApiWorld → ApiWorld → Prop}
    {brokerUp : Bool} {w : ApiWorld} {schedule : List (Nat × Option EditJob)}
    {C : EditPool → EditLabel → Prop} {s : EditPool}
    (hCact : ∀ s t i op reply w', scriptedEdit brokerUp i op s.world = some (reply, w') →
      C s (.act t ⟨op, reply⟩))
    (hplay : Pool.play EditJob.program (scriptedEdit brokerUp) 0 schedule w.idle = some s)
    (hCspawn : ∀ s t info, (t, some info) ∈ schedule → C s (.spawn t info)) :
    Pool.Reachable (editSystem env) (· = w) C s :=
  Pool.Reachable.play (fun _ _ => rfl) scriptedEdit_sound hCact hplay hCspawn (.start rfl)

/-- A pool that a schedule computes has a ledger. -/
theorem exists_ledger_of_schedule [Runtime] [ProcessEnv] {brokerUp : Bool} {w : ApiWorld}
    {schedule : List (Nat × Option EditJob)} {check : EditPool → Bool}
    {C : EditPool → EditLabel → Prop} (hCspawn : ∀ s t info, C s (.spawn t info))
    (hCact : ∀ s t i op reply w', scriptedEdit brokerUp i op s.world = some (reply, w') →
      C s (.act t ⟨op, reply⟩))
    (h : (Pool.play EditJob.program (scriptedEdit brokerUp) 0 schedule w.idle).any check = true) :
    ∃ s book, Pool.Ledger closedSystem C AddsVersions w.idle s book ∧ check s = true := by
  obtain ⟨s, hplay, hcheck⟩ := (Option.any_eq_true _ _).mp h
  have hreach : Pool.Reachable closedSystem (· = w) C s :=
    reachable_of_schedule hCact hplay fun _ _ _ _ => hCspawn _ _ _
  obtain ⟨_, labels, rfl, hrun⟩ := hreach.exists_run
  obtain ⟨book, hledger⟩ := hrun.exists_ledger fun _ _ _ _ => exec_versions
  exact ⟨s, book, hledger, hcheck⟩

/-- Another version is added while one is being restored. -/
def restoreSchedule : List (Nat × Option EditJob) :=
  [(0, some (.restoreVersion "workspace" "workflow" "version")),
    (1, some (.createVersion "workspace" "workflow" ⟨.obj [("nodes", .arr [])]⟩)),
    (1, none), (1, none), (0, none), (0, none), (0, none)]

def hasReturnedEdit (s : EditPool) (t : Nat) : Bool :=
  match s.threads t with
  | some ⟨_, _, q⟩ => q.returned
  | none => false

theorem serving_numbered : ApiWorld.serving.db.Numbered := by
  constructor
  · intro workflowId
    by_cases h : "workflow" = workflowId
    · exact ⟨1, by simp [Database.versionNumbers, ApiWorld.serving, h]⟩
    · exact ⟨0, by simp [Database.versionNumbers, ApiWorld.serving, h]⟩
  · decide

theorem version_history_restore :
    let _ : Runtime := .sample false
    let _ : ProcessEnv := ⟨none⟩
    ∃ s book info h,
      Pool.Ledger closedSystem NoLateFailure AddsVersions ApiWorld.serving.idle s book
      ∧ s.threads 0 = some ⟨info, h, .pure ()⟩
      ∧ VersionHistory ApiWorld.serving.db.workflowVersions s book := by
  intro _ _
  have hplay : (Pool.play EditJob.program (scriptedEdit true) 0 restoreSchedule
      ApiWorld.serving.idle).any (hasReturnedEdit · 0) = true := by
    decide +kernel
  obtain ⟨s, book, hledger, hcheck⟩ := exists_ledger_of_schedule (C := NoLateFailure)
    (fun _ _ _ => trivial) (fun s t i op reply w' h th _ hthrew =>
      absurd ((scriptedEdit_answered h).symm.trans hthrew) (by simp)) hplay
  unfold hasReturnedEdit at hcheck
  split at hcheck
  · rename_i info h q hth
    rw [eq_pure_of_returned hcheck] at hth
    exact ⟨s, book, info, h, hledger, hth, version_history serving_numbered hledger⟩
  · cases hcheck

/-- A workflow, created with the broker down. -/
def createSchedule : List (Nat × Option EditJob) :=
  (0, some (.create "workspace" ⟨"Workflow", "workflow", none, none⟩ "user"))
    :: List.replicate 5 (0, none)

/-- A request that threw after a call that added a version. -/
def threwLate (s : EditPool) (t : Nat) : Bool :=
  match s.threads t with
  | some ⟨_, h, .throw _⟩ => h.any fun ev => EditOp.Appends ev.op && ev.reply.applied
  | _ => false

/-- The request fails, and its version stays. -/
theorem failed_create_leaves_version :
    let _ : Runtime := .sample false
    let _ : ProcessEnv := ⟨none⟩
    Database.empty.Numbered ∧ ∃ s book,
      Pool.Ledger closedSystem (fun _ _ => True) AddsVersions
          (ApiWorld.idle ⟨.empty, false, []⟩) s book
        ∧ ∃ info h e, s.threads 0 = some ⟨info, h, .throw e⟩ ∧ book 0 ≠ [] := by
  intro _ _
  refine ⟨⟨fun _ => ⟨0, .refl _⟩, by decide⟩, ?_⟩
  have hplay : (Pool.play EditJob.program (scriptedEdit false) 0 createSchedule
      (ApiWorld.idle ⟨.empty, false, []⟩)).any (threwLate · 0) = true := by
    decide +kernel
  obtain ⟨s, book, hledger, hcheck⟩ := exists_ledger_of_schedule (C := fun _ _ => True)
    (fun _ _ _ => trivial) (fun _ _ _ _ _ _ _ => trivial) hplay
  unfold threwLate at hcheck
  split at hcheck
  · rename_i info h e hth
    refine ⟨s, book, hledger, info, h, e, hth, fun hempty => ?_⟩
    obtain ⟨ev, hev, happended⟩ := List.any_eq_true.mp hcheck
    rw [Bool.and_eq_true] at happended
    rcases (ledger_balanced hledger).booked 0 _ hth with ⟨-, hnone⟩ | ⟨row, hrow, -⟩
    · exact hnone ev hev happended
    · exact absurd (hempty.symm.trans hrow) (by simp)
  · cases hcheck

end FlowPilot.Api
