import FlowPilot.Api.MemberPolicy

/-!
# One owner

Every workspace has one owner, the user who created it, in every state that
any requests reach (`one_owner`). The management writes to a membership by id
alone, on a policy asked about a role read before; what saves the owner is
that owners never stop being owners. A membership once read as something else
never becomes one, since no request grants the role, and its id is never given
to another.

The ids are random, and the database checks them against the rows it has; that
an id of a deleted row does not return is a property of their generator. So the
calls are logged: with the ids of all memberships so far, and with who created
which workspace.
-/

namespace FlowPilot.Api

open Prog hiding pure throw bind tryCatch

/-- The members of a workspace who own it. -/
def Accounts.owners (db : Accounts) (workspaceId : String) : List WorkspaceMember :=
  db.workspaceMembers.filter fun row => row.workspaceId = workspaceId ∧ row.role = .owner

/-! ## Logged calls -/

/-- The database, the ids of all memberships that there have been, and the
creators of the workspaces. -/
structure AccountLog where
  accounts : Accounts
  memberIds : List String
  creators : List (String × String)

/-- The workspaces that a call has added, each with the user who asked for
it. -/
def createdBy (op : AccountOp) (db db' : Accounts) : List (String × String) :=
  match op with
  | .db (.createWorkspace data) =>
      (db'.workspaces.filter fun workspace => workspace.id ∉ db.workspaces.map (·.id)).map
        fun workspace => (workspace.id, data.ownerUserId)
  | _ => []

/-- One call; the id of a new membership has not been there before. -/
structure LoggedExec (op : AccountOp) (w : AccountLog) (reply : Reply AccountError op.Result)
    (w' : AccountLog) : Prop where
  exec : op.exec w.accounts reply w'.accounts
  fresh : ∀ row ∈ w'.accounts.workspaceMembers,
    row.id ∈ w.accounts.workspaceMembers.map (·.id) ∨ row.id ∉ w.memberIds
  memberIds : w'.memberIds = w.memberIds ++ w'.accounts.workspaceMembers.map (·.id)
  creators : w'.creators = w.creators ++ createdBy op w.accounts w'.accounts

/-- The requests of `accountSystem`, with the log. -/
def loggedSystem [CaseMapping] :
    PoolSystem AccountLog AccountJob AccountOp AccountOp.Result AccountError where
  exec := LoggedExec
  program := AccountJob.program
  spawn _ w w' := w' = w
  stop _ _ _ _ := False
  env _ _ := False

/-- A database without workspaces, and an empty log. -/
structure AccountLog.Blank (w : AccountLog) : Prop where
  constraints : w.accounts.Constraints
  workspaces : w.accounts.workspaces = []
  memberIds : w.memberIds = []
  creators : w.creators = []

/-! ## Calls that spare the owners -/

/-- The membership that a call writes is no owner's, and is not made one. -/
def SparesOwners (db : Accounts) : AccountOp → Prop
  | .db (.addMember data) => data.role ≠ .owner
  | .db (.updateMember id role) =>
      role ≠ .owner ∧ ∀ row ∈ db.workspaceMembers, row.id = id → row.role ≠ .owner
  | .db (.deleteMember id) => ∀ row ∈ db.workspaceMembers, row.id = id → row.role ≠ .owner
  | _ => True

/-- A call that adds a workspace together with its owner. -/
structure AddsWorkspace (op : AccountOp) (db db' : Accounts) (created : Workspace)
    (row : WorkspaceMember) : Prop where
  op_eq : ∃ name slug, op = .db (.createWorkspace ⟨name, slug, row.userId⟩)
  workspaces : db'.workspaces = db.workspaces ++ [created]
  new : ∀ workspace ∈ db.workspaces, workspace.id ≠ created.id
  members : db'.workspaceMembers = db.workspaceMembers ++ [row]
  newMember : ∀ member ∈ db.workspaceMembers, member.id ≠ row.id
  workspaceId : row.workspaceId = created.id
  role : row.role = .owner

/-- A call that leaves the workspaces and their owners alone. -/
structure KeepsOwners (op : AccountOp) (db db' : Accounts) : Prop where
  workspaces : db'.workspaces = db.workspaces
  owners : ∀ workspaceId, db'.owners workspaceId = db.owners workspaceId
  created : createdBy op db db' = []

section

variable {op : AccountOp} {ctx : AccountContext} {db db' : Accounts} {r : op.Result}

theorem updateMember_owners {id : String} {role : WorkspaceRole} {member : Option MemberResponse}
    (hrole : role ≠ .owner) (hrows : ∀ row ∈ db.workspaceMembers, row.id = id → row.role ≠ .owner)
    (h : db.updateMember ctx id role = .ok (member, db')) (workspaceId : String) :
    db'.owners workspaceId = db.owners workspaceId := by
  obtain rfl := Accounts.updateMember_eq_ok h
  refine Table.filter_update fun row hrow hid => ?_
  simp [hrole, hrows row hrow hid]

theorem deleteMember_owners {id : String}
    (hrows : ∀ row ∈ db.workspaceMembers, row.id = id → row.role ≠ .owner)
    (h : db.deleteMember id = .ok ((), db')) (workspaceId : String) :
    db'.owners workspaceId = db.owners workspaceId := by
  obtain rfl := Accounts.deleteMember_eq_ok h
  rw [Accounts.owners, Accounts.owners, List.filter_filter]
  refine List.filter_congr fun row hrow => ?_
  by_cases hid : row.id = id <;> simp [hid, hrows row hrow]

theorem createMember_owners {workspaceId userId : String} {role : WorkspaceRole}
    {member : Option MemberResponse} (hrole : role ≠ .owner)
    (h : db.createMember ctx workspaceId userId role = .ok (member, db')) (id : String) :
    db'.owners id = db.owners id := by
  obtain ⟨-, -, -, rfl⟩ := Accounts.createMember_eq_ok h
  simp [Accounts.owners, Accounts.newMember, List.filter_append, hrole]

/-- A call that spares the owners leaves them alone, or adds a workspace with
its owner. -/
theorem run_owners (hspares : SparesOwners db op) (h : op.run ctx db = .ok (r, db')) :
    KeepsOwners op db db' ∨ ∃ created row, AddsWorkspace op db db' created row := by
  cases op with
  | hash password =>
      cases h
      exact Or.inl ⟨rfl, fun _ => rfl, rfl⟩
  | db c =>
      cases c with
      | addMember data =>
          obtain ⟨user, db₁, hupsert, hcreate⟩ := Accounts.addMember_eq_ok h
          have hsame : db₁.workspaces = db.workspaces
              ∧ db₁.workspaceMembers = db.workspaceMembers := by
            rcases Accounts.upsertUser_eq_ok hupsert with ⟨row, -, -, rfl⟩ | hnew
            · exact ⟨rfl, rfl⟩
            · obtain ⟨-, -, rfl⟩ := Accounts.createUser_eq_ok hnew
              exact ⟨rfl, rfl⟩
          have howners : ∀ id, db₁.owners id = db.owners id := fun id => by
            rw [Accounts.owners, hsame.2, Accounts.owners]
          obtain ⟨-, -, -, hdb'⟩ := Accounts.createMember_eq_ok hcreate
          refine Or.inl ⟨?_, fun id => (createMember_owners hspares hcreate id).trans (howners id),
            rfl⟩
          rw [hdb']
          exact hsame.1
      | updateMember id role =>
          refine Or.inl ⟨?_, updateMember_owners hspares.1 hspares.2 h, rfl⟩
          rw [Accounts.updateMember_eq_ok h]
      | deleteMember id =>
          refine Or.inl ⟨?_, deleteMember_owners hspares h, rfl⟩
          rw [Accounts.deleteMember_eq_ok h]
      | createWorkspace data =>
          obtain ⟨hnew, created, member, hid, -, hcreate⟩ := Accounts.createWorkspace_eq_ok h
          obtain ⟨hmembers, -, -, rfl⟩ := Accounts.createMember_eq_ok hcreate
          exact Or.inr ⟨created, _, ⟨data.name, data.slug, rfl⟩, rfl,
            fun workspace hw => hid ▸ (hnew workspace hw).1, rfl,
            fun member hmember => (hmembers member hmember).1, hid.symm, rfl⟩
      | updateUser id displayName passwordHash =>
          obtain ⟨⟨user, db₁⟩, hupdate, heq⟩ := Accounts.map_eq_ok h
          cases heq
          obtain ⟨-, rfl⟩ := Accounts.updateUser_eq_ok hupdate
          exact Or.inl ⟨rfl, fun _ => rfl, rfl⟩
      | createUser email displayName passwordHash =>
          obtain ⟨⟨user, db₁⟩, hcreate, heq⟩ := Accounts.map_eq_ok h
          cases heq
          obtain ⟨-, -, rfl⟩ := Accounts.createUser_eq_ok hcreate
          exact Or.inl ⟨rfl, fun _ => rfl, rfl⟩
      | _ =>
          cases h
          exact Or.inl ⟨rfl, fun _ => rfl, rfl⟩

/-- The same, of a call that may fail. -/
theorem exec_owners {reply : Reply AccountError op.Result} (hspares : SparesOwners db op)
    (h : op.exec db reply db') :
    KeepsOwners op db db' ∨ ∃ created row, AddsWorkspace op db db' created row := by
  rcases h.effect with rfl | ⟨ctx, r, hrun⟩
  · refine Or.inl ⟨rfl, fun _ => rfl, ?_⟩
    unfold createdBy
    split
    · simpa using fun workspace hmem => ⟨workspace, hmem, rfl⟩
    · rfl
  · exact run_owners hspares hrun

theorem AddsWorkspace.created {created : Workspace} {row : WorkspaceMember}
    (h : AddsWorkspace op db db' created row) :
    createdBy op db db' = [(created.id, row.userId)] := by
  obtain ⟨name, slug, rfl⟩ := h.op_eq
  have hold :
      db.workspaces.filter (fun workspace => workspace.id ∉ db.workspaces.map (·.id)) = [] :=
    List.filter_eq_nil_iff.mpr fun workspace hmem => by
      simpa using ⟨workspace, hmem, rfl⟩
  have hnew : created.id ∉ db.workspaces.map (·.id) := by
    simpa using h.new
  simp only [createdBy, h.workspaces, List.filter_append, hold, List.nil_append]
  rw [List.filter_cons_of_pos (by simpa using hnew)]
  rfl

end

/-! ## What a call keeps -/

/-- There has been a membership with this id, and it is no owner's. -/
def NoOwnerHas (w : AccountLog) (id : String) : Prop :=
  id ∈ w.memberIds ∧ ∀ row ∈ w.accounts.workspaceMembers, row.id = id → row.role ≠ .owner

/-- Every workspace has one owner, its creator, and the log is complete. -/
structure OwnersInv (w : AccountLog) : Prop where
  constraints : w.accounts.Constraints
  memberIds : ∀ row ∈ w.accounts.workspaceMembers, row.id ∈ w.memberIds
  creators : ∀ entry ∈ w.creators, ∃ workspace ∈ w.accounts.workspaces, workspace.id = entry.1
  owner : ∀ workspace ∈ w.accounts.workspaces, ∃ row, w.accounts.owners workspace.id = [row]
    ∧ ∀ userId, (workspace.id, userId) ∈ w.creators ↔ userId = row.userId

theorem AccountLog.Blank.ownersInv {w : AccountLog} (h : w.Blank) : OwnersInv w where
  constraints := h.constraints
  memberIds row hrow := by
    obtain ⟨workspace, hmem, -⟩ := h.constraints.member_workspace row hrow
    rw [h.workspaces] at hmem
    cases hmem
  creators entry hentry := by
    rw [h.creators] at hentry
    cases hentry
  owner workspace hmem := by
    rw [h.workspaces] at hmem
    cases hmem

section

variable {op : AccountOp} {w w' : AccountLog} {reply : Reply AccountError op.Result}

/-- A membership that is no owner's stays so: no call promotes it, and no
other gets its id. -/
theorem NoOwnerHas.exec {id : String} (h : NoOwnerHas w id) (hspares : SparesOwners w.accounts op)
    (hexec : LoggedExec op w reply w') : NoOwnerHas w' id := by
  refine ⟨hexec.memberIds ▸ List.mem_append_left _ h.1, fun row hrow hid howner => ?_⟩
  rcases exec_owners hspares hexec.exec with hkeeps | ⟨created, new, hadds⟩
  · have hmem : row ∈ w'.accounts.owners row.workspaceId :=
      List.mem_filter.mpr ⟨hrow, by simpa using howner⟩
    rw [hkeeps.owners] at hmem
    exact h.2 row (List.mem_of_mem_filter hmem) hid howner
  · have hrow' := hrow
    rw [hadds.members] at hrow'
    rcases List.mem_append.mp hrow' with hold | hnew
    · exact h.2 row hold hid howner
    · obtain rfl := List.mem_singleton.mp hnew
      rcases hexec.fresh row hrow with hold | hfresh
      · obtain ⟨old, hold, hsame⟩ := List.mem_map.mp hold
        exact hadds.newMember old hold hsame
      · exact hfresh (hid ▸ h.1)

/-- What is read as no owner's is none, and has an id that is logged. -/
theorem OwnersInv.noOwnerHas (h : OwnersInv w) {row : WorkspaceMember}
    (hrow : row ∈ w.accounts.workspaceMembers) (hrole : row.role ≠ .owner) :
    NoOwnerHas w row.id := by
  refine ⟨h.memberIds row hrow, fun row' hrow' hid => ?_⟩
  obtain rfl := List.inj_on_of_nodup_map h.constraints.member_ids hrow' hrow hid
  exact hrole

/-- A workspace that was there keeps its owner, and the new one has the user
who asked for it. -/
theorem OwnersInv.owner_of_adds (h : OwnersInv w) {created : Workspace} {row : WorkspaceMember}
    (hadds : AddsWorkspace op w.accounts w'.accounts created row)
    (hcreators : w'.creators = w.creators ++ [(created.id, row.userId)]) :
    ∀ workspace ∈ w'.accounts.workspaces, ∃ row, w'.accounts.owners workspace.id = [row]
      ∧ ∀ userId, (workspace.id, userId) ∈ w'.creators ↔ userId = row.userId := by
  intro workspace hmem
  have howners : w'.accounts.owners workspace.id
      = w.accounts.owners workspace.id ++ [row].filter fun row =>
        row.workspaceId = workspace.id ∧ row.role = .owner := by
    rw [Accounts.owners, hadds.members, List.filter_append]
    rfl
  rw [hadds.workspaces] at hmem
  rw [howners, hcreators]
  rcases List.mem_append.mp hmem with hold | hnew
  · -- an old workspace: neither the new row nor the new entry is about it
    have hne := hadds.new workspace hold
    obtain ⟨owner, howner, huser⟩ := h.owner workspace hold
    refine ⟨owner, ?_, fun userId => ?_⟩
    · simp [howner, hadds.workspaceId, Ne.symm hne]
    · simp [huser, hne]
  · -- the new one: nobody was a member of it, and nobody had created it
    obtain rfl := List.mem_singleton.mp hnew
    have hnone : w.accounts.owners workspace.id = [] := by
      refine List.filter_eq_nil_iff.mpr fun member hmember hmatches => ?_
      obtain ⟨other, hother, hid⟩ := h.constraints.member_workspace member hmember
      simp only [decide_eq_true_eq] at hmatches
      exact hadds.new other hother (hid.trans hmatches.1)
    have hnobody : ∀ userId, (workspace.id, userId) ∉ w.creators := fun userId hentry => by
      obtain ⟨other, hother, hid⟩ := h.creators _ hentry
      exact hadds.new other hother hid
    refine ⟨row, ?_, fun userId => ?_⟩
    · simp [hnone, hadds.workspaceId, hadds.role]
    · simp [hnobody]

theorem OwnersInv.exec (h : OwnersInv w) (hspares : SparesOwners w.accounts op)
    (hexec : LoggedExec op w reply w') : OwnersInv w' := by
  have hids : ∀ row ∈ w'.accounts.workspaceMembers, row.id ∈ w'.memberIds := fun row hrow => by
    rw [hexec.memberIds]
    exact List.mem_append_right _ (List.mem_map_of_mem hrow)
  have hconstraints := AccountOp.exec_constraints h.constraints hexec.exec
  rcases exec_owners hspares hexec.exec with hkeeps | ⟨created, row, hadds⟩
  · have hcreators : w'.creators = w.creators := by
      rw [hexec.creators, hkeeps.created, List.append_nil]
    refine ⟨hconstraints, hids, ?_, ?_⟩
    · rw [hcreators, hkeeps.workspaces]
      exact h.creators
    · simp only [hcreators, hkeeps.workspaces, hkeeps.owners]
      exact h.owner
  · have hcreators : w'.creators = w.creators ++ [(created.id, row.userId)] := by
      rw [hexec.creators, hadds.created]
    refine ⟨hconstraints, hids, fun entry hentry => ?_, h.owner_of_adds hadds hcreators⟩
    rw [hcreators] at hentry
    rw [hadds.workspaces]
    rcases List.mem_append.mp hentry with hentry | hentry
    · obtain ⟨workspace, hmem, hid⟩ := h.creators entry hentry
      exact ⟨workspace, List.mem_append_left _ hmem, hid⟩
    · obtain rfl := List.mem_singleton.mp hentry
      exact ⟨created, by simp, rfl⟩

end

/-! ## What the requests ask -/

/-- No request makes an owner, and a write to a membership comes after a read
of it as no owner's. -/
def AsksPolicy (h : AccountHistory) : AccountOp → Prop
  | .db (.addMember data) => data.role ≠ .owner
  | .db (.updateMember id role) => role ≠ .owner
      ∧ ∃ workspaceId member, memberEvent workspaceId id member ∈ h ∧ member.role ≠ .owner
  | .db (.deleteMember id) =>
      ∃ workspaceId member, memberEvent workspaceId id member ∈ h ∧ member.role ≠ .owner
  | _ => True

theorem asksPolicy_granted : Granted AsksPolicy where
  reads h op hop := by
    cases op with
    | hash password => trivial
    | db c =>
        cases c with
        | addMember data => cases hop
        | updateMember id role => cases hop
        | deleteMember id => cases hop
        | _ => trivial
  createWorkspace _ _ := trivial
  updateUser _ _ _ _ := trivial
  createUser _ _ _ _ := trivial
  addMember _ _ _ _ _ _ hcheck := (WorkspacesService.assertCanAssignRole_eq_ok.mp hcheck).1
  updateMember id _ _ _ _ member _ _ hcheck := by
    obtain ⟨⟨hmember, hnext⟩, -⟩ := WorkspacesService.assertCanUpdateMember_eq_ok.mp hcheck
    exact ⟨hnext, id, member, by simp, hmember⟩
  deleteMember id _ _ _ _ member _ hcheck :=
    ⟨id, member, by simp, (WorkspacesService.assertCanRemoveMember_eq_ok.mp hcheck).1⟩

abbrev LoggedPool := Pool Nat AccountLog AccountJob AccountOp AccountOp.Result AccountError

/-- What the threads have read as no owner's is none still. -/
def ReadsHold (s : LoggedPool) : Prop :=
  ∀ t th, s.threads t = some th → ∀ workspaceId id member,
    memberEvent workspaceId id member ∈ th.history → member.role ≠ .owner → NoOwnerHas s.world id

/-- A call that a thread is about to make spares the owners. -/
theorem sparesOwners_of_asksPolicy {w : AccountLog} {h : AccountHistory} {op : AccountOp}
    (hasks : AsksPolicy h op) (hreads : ∀ workspaceId id member,
      memberEvent workspaceId id member ∈ h → member.role ≠ .owner → NoOwnerHas w id) :
    SparesOwners w.accounts op := by
  cases op with
  | hash password => trivial
  | db c =>
      cases c with
      | addMember data => exact hasks
      | updateMember id role =>
          obtain ⟨hrole, workspaceId, member, hread, hmember⟩ := hasks
          exact ⟨hrole, (hreads workspaceId id member hread hmember).2⟩
      | deleteMember id =>
          obtain ⟨workspaceId, member, hread, hmember⟩ := hasks
          exact (hreads workspaceId id member hread hmember).2
      | _ => trivial

/-- A read finds what is there. -/
theorem noOwnerHas_of_read {w w' : AccountLog} (hinv : OwnersInv w) {op : AccountOp}
    {reply : Reply AccountError op.Result} (hexec : op.exec w.accounts reply w'.accounts)
    {workspaceId id : String} {member : MembershipPolicySubject}
    (hread : memberEvent workspaceId id member = ⟨op, reply⟩) (hrole : member.role ≠ .owner) :
    NoOwnerHas w id := by
  cases hread
  obtain ⟨ctx, hrun⟩ := hexec
  obtain ⟨row, hfind, rfl⟩ := Option.map_eq_some_iff.mp (Prod.mk.inj (Except.ok.inj hrun)).1
  have hid := List.find?_some hfind
  simp only [decide_eq_true_eq] at hid
  exact hid.1 ▸ hinv.noOwnerHas (List.mem_of_find?_eq_some hfind) hrole

section

variable [CaseMapping] {s s' : LoggedPool}
  {l : Pool.Label Nat AccountJob AccountOp AccountOp.Result AccountError}

/-- A step keeps the owners, and what is no owner's. -/
theorem step_owners (hinv : OwnersInv s.world) (hreads : ReadsHold s)
    (hconf : s.Conform (.ofSafe fun _ => AsksPolicy)) (hstep : Pool.Step loggedSystem s l s') :
    OwnersInv s'.world ∧ ∀ id, NoOwnerHas s.world id → NoOwnerHas s'.world id := by
  cases hstep with
  | act hth hexec =>
      have hspares := sparesOwners_of_asksPolicy (hconf.next hth) (hreads _ _ hth)
      exact ⟨hinv.exec hspares hexec, fun id hid => hid.exec hspares hexec⟩
  | spawn _ hspawn =>
      obtain rfl := hspawn
      exact ⟨hinv, fun id hid => hid⟩
  | stop _ hstop => exact hstop.elim
  | env henv => exact henv.elim

/-- A step keeps what the threads have read. -/
theorem step_reads (hinv : OwnersInv s.world) (hreads : ReadsHold s)
    (hkept : ∀ id, NoOwnerHas s.world id → NoOwnerHas s'.world id)
    (hstep : Pool.Step loggedSystem s l s') : ReadsHold s' := by
  intro t th hth workspaceId id member hread hrole
  refine hkept id ?_
  rcases hstep.thread_cases hth with
    hold | ⟨info, -, -, rfl⟩ | ⟨info, h, op, k, reply, rfl, hold, hexec, rfl⟩
  · exact hreads t th hold workspaceId id member hread hrole
  · cases hread
  · rcases List.mem_append.mp hread with hread | hread
    · exact hreads t _ hold workspaceId id member hread hrole
    · exact noOwnerHas_of_read hinv hexec.exec (List.mem_singleton.mp hread) hrole

/-- **One owner forever.** From a database without workspaces, whatever the
requests and however their calls interleave, every workspace has exactly one
owner, and it is the user who created it. -/
theorem one_owner
    {C : LoggedPool → Pool.Label Nat AccountJob AccountOp AccountOp.Result AccountError → Prop}
    (h : Pool.Reachable loggedSystem AccountLog.Blank C s) :
    ∀ workspace ∈ s.world.accounts.workspaces, ∃ row,
      s.world.accounts.owners workspace.id = [row]
        ∧ ∀ userId, (workspace.id, userId) ∈ s.world.creators ↔ userId = row.userId := by
  have hprog : ∀ info, SafeFrom AsksPolicy [] (loggedSystem.program info) :=
    program_safe asksPolicy_granted
  have hinv := Pool.Reachable.invariant (.ofSafe fun _ => AsksPolicy)
    (fun s => OwnersInv s.world ∧ ReadsHold s) hprog
    (fun w hw => ⟨hw.ownersInv, nofun⟩) (fun _ _ _ _ _ _ _ _ _ _ _ _ _ => trivial)
    (fun s s' l hinv hconf _ _ hstep => by
      obtain ⟨hinv', hkept⟩ := step_owners hinv.1 hinv.2 hconf hstep
      exact ⟨hinv', step_reads hinv.1 hinv.2 hkept hstep⟩) h
  exact hinv.1.1.owner

end

/-! ### A workspace with two members -/

/-- Every call takes effect and is answered, if its ids are new. -/
def answeredLogged (i : Nat) (op : AccountOp) (w : AccountLog) :
    Option (Reply AccountError op.Result × AccountLog) :=
  match answered i op w.accounts with
  | some (reply, accounts) =>
      if ∀ row ∈ accounts.workspaceMembers,
          row.id ∈ w.accounts.workspaceMembers.map (·.id) ∨ row.id ∉ w.memberIds then
        some (reply, ⟨accounts, w.memberIds ++ accounts.workspaceMembers.map (·.id),
          w.creators ++ createdBy op w.accounts accounts⟩)
      else none
  | none => none

theorem answeredLogged_sound (i : Nat) (op : AccountOp) (w : AccountLog)
    (reply : Reply AccountError op.Result) (w' : AccountLog)
    (h : answeredLogged i op w = some (reply, w')) : LoggedExec op w reply w' := by
  unfold answeredLogged at h
  split at h
  · rename_i reply' accounts hanswer
    split at h
    · rename_i hfresh
      cases h
      exact ⟨answered_sound i op _ _ _ hanswer, hfresh, rfl, rfl⟩
    · cases h
  · cases h

/-- A user registers, creates a workspace and adds a member. -/
def firstWorkspaceSchedule : List (Nat × Option AccountJob) :=
  [(0, some (.register ⟨"ada@acme.test", "password", "Ada"⟩)), (0, none), (0, none), (0, none),
    (1, some (.createWorkspace ⟨"Acme", "acme"⟩ "uuid-iii")), (1, none),
    (2, some (.members "uuid-iiiii" ⟨"uuid-iii", none⟩
      (.addMember ⟨"bob@acme.test", none, some .admin⟩))), (2, none), (2, none), (2, none)]

/-- An empty database. -/
def emptyLog : AccountLog := ⟨⟨[], [], []⟩, [], []⟩

theorem emptyLog_blank : emptyLog.Blank := by
  refine ⟨?_, rfl, rfl, rfl⟩
  constructor <;> decide

/-- There is a workspace, with two members. -/
def hasTwoMembers (s : LoggedPool) : Bool :=
  decide (s.world.accounts.workspaces ≠ []) && s.world.accounts.workspaceMembers.length == 2

theorem firstWorkspaceSchedule_check :
    let _ : CaseMapping := .ascii
    let start : LoggedPool := ⟨emptyLog, fun _ => none⟩
    (Pool.play AccountJob.program answeredLogged 0 firstWorkspaceSchedule start).any
      hasTwoMembers = true := by
  decide

/-- The theorem at the end of that schedule. -/
theorem one_owner_firstWorkspace :
    let _ : CaseMapping := .ascii
    ∃ s, Pool.Reachable loggedSystem AccountLog.Blank (fun _ _ => True) s
      ∧ hasTwoMembers s = true ∧ ∃ workspace ∈ s.world.accounts.workspaces, ∃ row,
        s.world.accounts.owners workspace.id = [row] := by
  intro _
  obtain ⟨s, hs, hcheck⟩ := (Option.any_eq_true _ _).mp firstWorkspaceSchedule_check
  have hreach : Pool.Reachable loggedSystem AccountLog.Blank (fun _ _ => True) s :=
    Pool.Reachable.play (fun _ _ => rfl) answeredLogged_sound (fun _ _ _ _ _ _ _ => trivial) hs
      (fun _ _ _ _ => trivial) (.start emptyLog_blank)
  have hsome := hcheck
  simp only [hasTwoMembers, Bool.and_eq_true, decide_eq_true_eq] at hsome
  obtain ⟨workspace, hworkspace⟩ := List.exists_mem_of_ne_nil _ hsome.1
  obtain ⟨row, hrow, -⟩ := one_owner hreach workspace hworkspace
  exact ⟨s, hreach, hcheck, workspace, hworkspace, row, hrow⟩

end FlowPilot.Api
