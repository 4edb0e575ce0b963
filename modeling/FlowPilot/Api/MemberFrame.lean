import FlowPilot.Api.AccountServices

/-!
# Workspaces apart

What the operations of one workspace leave alone. Memberships belong to one
workspace, and every write to one is preceded by a read that places it
there. Users are shared: `addMember` looks its user up by e-mail in the whole
database and renames it when it is given a display name. So another workspace
is shown the same members with the same roles and e-mails, but perhaps under
another name (`otherWorkspace_framed`).
-/

namespace FlowPilot.Api

open Prog hiding pure throw bind tryCatch

/-! ## Sequences of operations -/

section

variable [CaseMapping]

/-- An operation on a given workspace, or the creation of one. -/
inductive WorkspaceOperation where
  | create (dto : CreateWorkspaceDto) (ownerUserId : String)
  | addMember (actorUserId : String) (dto : AddWorkspaceMemberDto)
  | updateMemberRole (memberId actorUserId : String) (nextRole : WorkspaceRole)
  | removeMember (memberId actorUserId : String)

namespace WorkspaceOperation

def program (workspaceId : String) : WorkspaceOperation → AccountRequest Unit
  | create dto ownerUserId => do
      let _ ← WorkspacesService.create dto ownerUserId
      pure ()
  | addMember actorUserId dto => do
      let _ ← WorkspacesService.addMember workspaceId actorUserId dto
      pure ()
  | updateMemberRole memberId actorUserId nextRole => do
      let _ ← WorkspacesService.updateMemberRole workspaceId memberId actorUserId nextRole
      pure ()
  | removeMember memberId actorUserId =>
      WorkspacesService.removeMember workspaceId memberId actorUserId

/-- The e-mail of the user that an operation adds. -/
def added? : WorkspaceOperation → Option String
  | addMember _ dto => some (CaseMapping.toLowerCase dto.email)
  | _ => none

/-- The same, if it gives a display name. -/
def renamed? : WorkspaceOperation → Option String
  | addMember _ dto =>
      (WorkspacesService.updateName dto).map fun _ => CaseMapping.toLowerCase dto.email
  | _ => none

end WorkspaceOperation

/-- The operations run one after the other, each to its end: some may fail,
with or without effect. -/
inductive Performed (workspaceId : String) : Accounts → List WorkspaceOperation → Accounts → Prop
  | nil (db : Accounts) : Performed workspaceId db [] db
  | cons {db db₁ db' : Accounts} {operation : WorkspaceOperation}
      {operations : List WorkspaceOperation} {out : Except AccountError Unit} :
      Runs AccountOp.exec (operation.program workspaceId) db out db₁ →
      Performed workspaceId db₁ operations db' →
      Performed workspaceId db (operation :: operations) db'

/-! ## The frame -/

/-- A user, up to the name if its e-mail is in `renamed`, and up to
`updatedAt` if it is in `touched`. -/
def UserResponse.mask (renamed touched : List String) (user : UserResponse) : UserResponse :=
  { user with
    displayName := if user.email ∈ renamed then "" else user.displayName
    updatedAt := if user.email ∈ touched then 0 else user.updatedAt }

def MemberResponse.mask (renamed touched : List String) (member : MemberResponse) :
    MemberResponse :=
  { member with user := member.user.mask renamed touched }

def WorkspaceResponse.mask (renamed touched : List String) (workspace : WorkspaceResponse) :
    WorkspaceResponse :=
  { workspace with members := workspace.members.map (·.mask renamed touched) }

/-- What a workspace is shown of the database stays the same, up to the
masks. -/
structure Framed (workspaceId : String) (renamed touched : List String) (db db' : Accounts) :
    Prop where
  workspace : db'.workspaces.find? (·.id = workspaceId) = db.workspaces.find? (·.id = workspaceId)
  members : db'.workspaceMembers.filter (·.workspaceId = workspaceId)
    = db.workspaceMembers.filter (·.workspaceId = workspaceId)
  users : ∀ id user, db.findUser id = some user → ∃ user', db'.findUser id = some user'
    ∧ user'.response.mask renamed touched = user.response.mask renamed touched

namespace Framed

variable {workspaceId : String} {renamed touched : List String} {db db₁ db' : Accounts}

omit [CaseMapping]

theorem refl (db : Accounts) : Framed workspaceId renamed touched db db where
  workspace := rfl
  members := rfl
  users _ user huser := ⟨user, huser, rfl⟩

theorem trans (h : Framed workspaceId renamed touched db db₁)
    (h' : Framed workspaceId renamed touched db₁ db') :
    Framed workspaceId renamed touched db db' where
  workspace := h'.workspace.trans h.workspace
  members := h'.members.trans h.members
  users id user huser := by
    obtain ⟨user₁, huser₁, hmask⟩ := h.users id user huser
    obtain ⟨user', huser', hmask'⟩ := h'.users id user₁ huser₁
    exact ⟨user', huser', hmask'.trans hmask⟩

theorem exists_workspace (h : Framed workspaceId renamed touched db db')
    (hexists : ∃ w ∈ db.workspaces, w.id = workspaceId) :
    ∃ w ∈ db'.workspaces, w.id = workspaceId := by
  have hfound : (db'.workspaces.find? (·.id = workspaceId)).isSome := by
    rw [h.workspace]
    simpa [List.find?_isSome] using hexists
  simpa [List.find?_isSome] using hfound

end Framed

end

/-! ## What a call leaves alone -/

section

variable {workspaceId other : String} {renamed touched : List String} {db db' : Accounts}
  {ctx : AccountContext}

/-- A change of the name that the masks do not show. -/
theorem mask_renameUser {updateName : Option String} {user : User} (htouched : user.email ∈ touched)
    (hrenamed : updateName ≠ none → user.email ∈ renamed) :
    (Accounts.renameUser ctx updateName user).response.mask renamed touched
      = user.response.mask renamed touched := by
  cases updateName with
  | none =>
      by_cases htouches : ctx.touches
      · have hupdate : Accounts.renameUser ctx none user = { user with updatedAt := ctx.now } :=
          if_pos htouches
        rw [hupdate]
        simp only [User.response, UserResponse.mask, htouched, if_true]
        rfl
      · have hsame : Accounts.renameUser ctx none user = user := if_neg htouches
        rw [hsame]
  | some displayName =>
      simp [Accounts.renameUser, User.response, UserResponse.mask, htouched, hrenamed]

theorem upsertUser_framed {email createName : String} {updateName : Option String} {user : User}
    (htouched : email ∈ touched) (hrenamed : updateName ≠ none → email ∈ renamed)
    (h : db.upsertUser ctx email createName updateName = .ok (user, db')) :
    Framed other renamed touched db db' := by
  rcases Accounts.upsertUser_eq_ok h with ⟨row, -, -, rfl⟩ | hcreate
  · refine ⟨rfl, rfl, fun id user huser =>
      ⟨if user.email = email then Accounts.renameUser ctx updateName user else user, ?_, ?_⟩⟩
    · rw [Accounts.findUser_update (Accounts.renameUser_id _), huser]
      rfl
    · split
      · rename_i hemail
        exact mask_renameUser (hemail ▸ htouched) (hemail ▸ hrenamed)
      · rfl
  · obtain ⟨-, -, rfl⟩ := Accounts.createUser_eq_ok hcreate
    refine ⟨rfl, rfl, fun id user huser => ⟨user, ?_, rfl⟩⟩
    simp only [Accounts.findUser, List.find?_append] at huser ⊢
    simp [huser]

theorem createMember_framed {userId : String} {role : WorkspaceRole}
    {member : Option MemberResponse} (hne : other ≠ workspaceId)
    (h : db.createMember ctx workspaceId userId role = .ok (member, db')) :
    Framed other renamed touched db db' := by
  obtain ⟨-, -, -, rfl⟩ := Accounts.createMember_eq_ok h
  refine ⟨rfl, ?_, fun id user huser => ⟨user, huser, rfl⟩⟩
  have hnew : ¬ (Accounts.newMember ctx workspaceId userId role).workspaceId = other :=
    fun h => hne h.symm
  simp [List.filter_append, hnew]

/-- The row with an id that is in the workspace is not in another. -/
theorem not_other_of_id (hconstraints : db.Constraints) (hne : other ≠ workspaceId) {id : String}
    (hrow : ∃ row ∈ db.workspaceMembers, row.id = id ∧ row.workspaceId = workspaceId) :
    ∀ row ∈ db.workspaceMembers, row.id = id → row.workspaceId ≠ other := by
  obtain ⟨row, hrow, rfl, rfl⟩ := hrow
  intro row' hrow' hid
  obtain rfl := List.inj_on_of_nodup_map hconstraints.member_ids hrow' hrow hid
  exact fun h => hne h.symm

theorem updateMember_framed {id : String} {role : WorkspaceRole} {member : Option MemberResponse}
    (hown : ∀ row ∈ db.workspaceMembers, row.id = id → row.workspaceId ≠ other)
    (h : db.updateMember ctx id role = .ok (member, db')) :
    Framed other renamed touched db db' := by
  obtain rfl := Accounts.updateMember_eq_ok h
  refine ⟨rfl, ?_, fun id user huser => ⟨user, huser, rfl⟩⟩
  refine Table.filter_update fun row hrow hid => ?_
  simp [hown row hrow hid]

theorem deleteMember_framed {id : String}
    (hown : ∀ row ∈ db.workspaceMembers, row.id = id → row.workspaceId ≠ other)
    (h : db.deleteMember id = .ok ((), db')) : Framed other renamed touched db db' := by
  obtain rfl := Accounts.deleteMember_eq_ok h
  refine ⟨rfl, ?_, fun id user huser => ⟨user, huser, rfl⟩⟩
  rw [List.filter_filter]
  refine List.filter_congr fun row hrow => ?_
  by_cases hid : row.id = id <;> simp [hid, hown row hrow]

theorem createWorkspace_framed {data : Accounts.CreateWorkspaceData}
    {workspace : WorkspaceResponse} (hother : ∃ w ∈ db.workspaces, w.id = other)
    (h : db.createWorkspace ctx data = .ok (workspace, db')) :
    Framed other renamed touched db db' := by
  obtain ⟨hnew, created, member, hid, -, hcreate⟩ := Accounts.createWorkspace_eq_ok h
  obtain ⟨w, hw, rfl⟩ := hother
  have hadded : Framed w.id renamed touched db
      { db with workspaces := db.workspaces ++ [created] } := by
    refine ⟨?_, rfl, fun id user huser => ⟨user, huser, rfl⟩⟩
    have hfound : (db.workspaces.find? (·.id = w.id)).isSome := by
      simpa [List.find?_isSome] using ⟨w, hw, rfl⟩
    rw [List.find?_append, Option.or_of_isSome hfound]
  exact hadded.trans (createMember_framed (hnew w hw).1 hcreate)

/-- Where the effect of a call frames, the call does. -/
theorem exec_framed {op : AccountOp} {reply : Reply AccountError op.Result}
    (hrun : ∀ ctx r, op.run ctx db = .ok (r, db') → Framed other renamed touched db db')
    (hexec : op.exec db reply db') : Framed other renamed touched db db' := by
  rcases hexec.effect with rfl | ⟨ctx, r, h⟩
  · exact .refl db'
  · exact hrun ctx r h

end

/-! ## What an operation leaves alone -/

section

variable {workspaceId other : String} {renamed touched : List String} {db db' : Accounts}

theorem read_runs {op : AccountOp} {out : Except AccountError op.Result} (hop : op.Reads = true)
    (h : Runs AccountOp.exec (perform op) db out db') : db' = db := by
  obtain ⟨reply, hexec, -⟩ := runs_perform h
  exact AccountOp.exec_reads hop hexec

theorem getActorMembership_runs {actorUserId : String}
    {out : Except AccountError MembershipPolicySubject}
    (h : Runs AccountOp.exec (WorkspacesService.getActorMembership workspaceId actorUserId) db out
      db') : db' = db := by
  rcases runs_bind h with ⟨e, hread, rfl⟩ | ⟨actor, db₁, hread, hrest⟩
  · exact read_runs rfl hread
  · obtain rfl := read_runs rfl hread
    cases actor with
    | none => exact (runs_throw hrest).2
    | some actor => exact (runs_pure hrest).2

/-- The member that was read is one of the workspace. -/
theorem getMember_runs {memberId : String} {out : Except AccountError MembershipPolicySubject}
    (h : Runs AccountOp.exec (WorkspacesService.getMember workspaceId memberId) db out db') :
    db' = db ∧ ∀ member, out = .ok member →
      ∃ row ∈ db.workspaceMembers, row.id = memberId ∧ row.workspaceId = workspaceId := by
  rcases runs_bind h with ⟨e, hread, rfl⟩ | ⟨found, db₁, hread, hrest⟩
  · exact ⟨read_runs rfl hread, fun _ h => by cases h⟩
  · obtain rfl := read_runs rfl hread
    obtain ⟨reply, ⟨ctx, hexec⟩, hreply⟩ := runs_perform hread
    cases found with
    | none => exact ⟨(runs_throw hrest).2, fun _ h => by cases (runs_throw hrest).1.symm.trans h⟩
    | some member =>
        refine ⟨(runs_pure hrest).2, fun _ _ => ?_⟩
        cases reply with
        | ok r =>
            obtain rfl := Except.ok.inj hreply
            obtain ⟨row, hrow, -⟩ := Option.map_eq_some_iff.mp (Prod.mk.inj (Except.ok.inj hexec)).1
            have hmem := List.mem_of_find?_eq_some hrow
            have hids := List.find?_some hrow
            exact ⟨row, hmem, by simpa using hids⟩
        | lost e => cases hreply
        | failed e => cases hreply

theorem ofResult_runs {check out : Except AccountError Unit}
    (h : Runs AccountOp.exec (AccountRequest.ofResult check) db out db') : db' = db := by
  cases check with
  | ok a => exact (runs_pure h).2
  | error e => exact (runs_throw h).2

theorem rethrowConflict_runs {α : Type} {message : String} {e : AccountError}
    {out : Except AccountError α}
    (h : Runs AccountOp.exec (AccountRequest.rethrowConflict message e) db out db') : db' = db := by
  unfold AccountRequest.rethrowConflict at h
  split at h
  · exact (runs_throw h).2
  · exact (runs_throw h).2

/-- A write whose conflict is rethrown. -/
theorem guarded_runs {op : AccountOp} {message : String} {out : Except AccountError op.Result}
    (h : Runs AccountOp.exec
      ((perform op).tryCatch (AccountRequest.rethrowConflict message)) db out db') :
    ∃ reply, op.exec db reply db' := by
  rcases runs_tryCatch h with ⟨a, hwrite, -⟩ | ⟨e, db₁, hwrite, hhandler⟩
  · obtain ⟨reply, hexec, -⟩ := runs_perform hwrite
    exact ⟨reply, hexec⟩
  · obtain rfl := rethrowConflict_runs hhandler
    obtain ⟨reply, hexec, -⟩ := runs_perform hwrite
    exact ⟨reply, hexec⟩

/-- A write to a member: nothing was written, or it was, and the member is
one of the workspace. -/
theorem managed_runs {actorUserId memberId : String}
    {check : MembershipPolicySubject → MembershipPolicySubject → Except AccountError Unit}
    {op : AccountOp} {out : Except AccountError op.Result}
    (h : Runs AccountOp.exec (do
      let actor ← WorkspacesService.getActorMembership workspaceId actorUserId
      let member ← WorkspacesService.getMember workspaceId memberId
      AccountRequest.ofResult (check actor member)
      perform op) db out db') :
    db' = db ∨ (∃ row ∈ db.workspaceMembers, row.id = memberId ∧ row.workspaceId = workspaceId)
      ∧ ∃ reply, op.exec db reply db' := by
  rcases runs_bind h with ⟨e, hactor, -⟩ | ⟨actor, db₁, hactor, h₁⟩
  · exact Or.inl (getActorMembership_runs hactor)
  obtain rfl := getActorMembership_runs hactor
  rcases runs_bind h₁ with ⟨e, hmember, -⟩ | ⟨member, db₂, hmember, h₂⟩
  · exact Or.inl (getMember_runs hmember).1
  obtain ⟨rfl, hrow⟩ := getMember_runs hmember
  rcases runs_bind h₂ with ⟨e, hcheck, -⟩ | ⟨_, db₃, hcheck, h₃⟩
  · exact Or.inl (ofResult_runs hcheck)
  obtain rfl := ofResult_runs hcheck
  obtain ⟨reply, hexec, -⟩ := runs_perform h₃
  exact Or.inr ⟨hrow member rfl, reply, hexec⟩

variable [CaseMapping]

/-- Every operation on a workspace frames the others. -/
theorem operation_framed {operation : WorkspaceOperation} {out : Except AccountError Unit}
    (hne : other ≠ workspaceId) (hconstraints : db.Constraints)
    (hother : ∃ w ∈ db.workspaces, w.id = other)
    (hrenamed : ∀ email, operation.renamed? = some email → email ∈ renamed)
    (htouched : ∀ email, operation.added? = some email → email ∈ touched)
    (h : Runs AccountOp.exec (operation.program workspaceId) db out db') :
    Framed other renamed touched db db' := by
  cases operation with
  | create dto ownerUserId =>
      obtain ⟨_, hcreate⟩ := runs_discard h
      obtain ⟨reply, hexec⟩ := guarded_runs hcreate
      refine exec_framed (fun ctx r hrun => ?_) hexec
      exact createWorkspace_framed hother hrun
  | addMember actorUserId dto =>
      obtain ⟨_, hadd⟩ := runs_discard h
      rcases runs_bind hadd with ⟨e, hactor, -⟩ | ⟨actor, db₁, hactor, h₁⟩
      · obtain rfl := getActorMembership_runs hactor
        exact .refl db'
      obtain rfl := getActorMembership_runs hactor
      rcases runs_bind h₁ with ⟨e, hcheck, -⟩ | ⟨_, db₂, hcheck, h₂⟩
      · obtain rfl := ofResult_runs hcheck
        exact .refl db'
      obtain rfl := ofResult_runs hcheck
      obtain ⟨reply, hexec⟩ := guarded_runs h₂
      refine exec_framed (fun ctx r hrun => ?_) hexec
      obtain ⟨user, db₁, hupsert, hcreate⟩ := Accounts.addMember_eq_ok hrun
      refine (upsertUser_framed (htouched _ rfl) (fun hname => ?_) hupsert).trans
        (createMember_framed hne hcreate)
      obtain ⟨name, hname⟩ := Option.ne_none_iff_exists'.mp hname
      refine hrenamed _ ?_
      have hupdate : WorkspacesService.updateName dto = some name := hname
      simp [WorkspaceOperation.renamed?, hupdate]
  | updateMemberRole memberId actorUserId nextRole =>
      obtain ⟨_, hupdate⟩ := runs_discard h
      rcases managed_runs hupdate with rfl | ⟨hrow, reply, hexec⟩
      · exact .refl db'
      · refine exec_framed (fun ctx r hrun => ?_) hexec
        exact updateMember_framed (not_other_of_id hconstraints hne hrow) hrun
  | removeMember memberId actorUserId =>
      rcases managed_runs h with rfl | ⟨hrow, reply, hexec⟩
      · exact .refl db'
      · refine exec_framed (fun ctx r hrun => ?_) hexec
        exact deleteMember_framed (not_other_of_id hconstraints hne hrow) hrun

theorem runs_constraints {operation : WorkspaceOperation} {out : Except AccountError Unit}
    (hconstraints : db.Constraints)
    (h : Runs AccountOp.exec (operation.program workspaceId) db out db') : db'.Constraints := by
  obtain ⟨events, -, hreplays⟩ := h
  exact replays_invariant (P := Accounts.Constraints)
    (fun _ _ _ _ h hexec => AccountOp.exec_constraints h hexec) hreplays hconstraints

/-- A sequence of operations frames the other workspaces. -/
theorem Performed.framed {operations : List WorkspaceOperation}
    (h : Performed workspaceId db operations db') (hne : other ≠ workspaceId) :
    db.Constraints → (∃ w ∈ db.workspaces, w.id = other) →
      (∀ operation ∈ operations, ∀ email, operation.renamed? = some email → email ∈ renamed) →
      (∀ operation ∈ operations, ∀ email, operation.added? = some email → email ∈ touched) →
      Framed other renamed touched db db' := by
  induction h with
  | nil db => exact fun _ _ _ _ => .refl db
  | @cons db db₁ db' operation operations out hrun _ ih =>
      intro hconstraints hother hrenamed htouched
      rw [List.forall_mem_cons] at hrenamed htouched
      have hfirst : Framed other renamed touched db db₁ :=
        operation_framed hne hconstraints hother hrenamed.1 htouched.1 hrun
      exact hfirst.trans (ih (runs_constraints hconstraints hrun) (hfirst.exists_workspace hother)
        hrenamed.2 htouched.2)

/-! ## What the other workspaces are shown -/

omit [CaseMapping] in
theorem Framed.findManyMember (h : Framed other renamed touched db db')
    (hconstraints : db.Constraints) (rank : String → Nat) :
    (db'.findManyMember rank other).map (·.mask renamed touched)
      = (db.findManyMember rank other).map (·.mask renamed touched) := by
  rw [Accounts.findManyMember, Accounts.findManyMember, h.members, List.map_filterMap,
    List.map_filterMap]
  refine List.filterMap_congr fun row hrow => ?_
  have hmem : row ∈ db.workspaceMembers := List.mem_of_mem_filter (mem_orderByAsc.mp hrow)
  obtain ⟨user, huser⟩ : ∃ user, db.findUser row.userId = some user := by
    obtain ⟨user, huser, hid⟩ := hconstraints.member_user row hmem
    refine Option.isSome_iff_exists.mp (List.find?_isSome.mpr ⟨user, huser, by simpa using hid⟩)
  obtain ⟨user', huser', hmask⟩ := h.users _ user huser
  simp [Accounts.selectMember, huser, huser', MemberResponse.mask, hmask]

/-- **Workspaces apart.** After any sequence of operations on a workspace
every other one is shown the same, but for the names of the users that the
sequence adds with a display name, and when the rows of the users it adds
were last updated. -/
theorem otherWorkspace_framed {operations : List WorkspaceOperation} (hne : other ≠ workspaceId)
    (hconstraints : db.Constraints) (hother : ∃ w ∈ db.workspaces, w.id = other)
    (h : Performed workspaceId db operations db') (rank : String → Nat) :
    let renamed := operations.filterMap (·.renamed?)
    let touched := operations.filterMap (·.added?)
    (WorkspacesService.findOne rank db' other).map (·.mask renamed touched)
        = (WorkspacesService.findOne rank db other).map (·.mask renamed touched)
      ∧ (WorkspacesService.findMembers rank db' other).map (·.map (·.mask renamed touched))
        = (WorkspacesService.findMembers rank db other).map (·.map (·.mask renamed touched)) := by
  intro renamed touched
  have hframed : Framed other renamed touched db db' := h.framed hne hconstraints hother
    (fun operation hmem email hemail => List.mem_filterMap.mpr ⟨operation, hmem, hemail⟩)
    (fun operation hmem email hemail => List.mem_filterMap.mpr ⟨operation, hmem, hemail⟩)
  have hmembers := hframed.findManyMember hconstraints rank
  obtain ⟨w, hw⟩ : ∃ w, db.workspaces.find? (·.id = other) = some w := by
    obtain ⟨w, hw, hid⟩ := hother
    exact Option.isSome_iff_exists.mp (List.find?_isSome.mpr ⟨w, hw, by simpa using hid⟩)
  have hw' := hframed.workspace.trans hw
  constructor
  · simp [WorkspacesService.findOne, Accounts.findUniqueWorkspace, hw, hw', Except.map,
      WorkspaceResponse.mask, hmembers]
  · simp only [WorkspacesService.findMembers, WorkspacesService.ensureWorkspaceExists, hw, hw']
    exact congrArg Except.ok hmembers

end

/-! ### A shared user -/

/-- Two workspaces; the owner of the second has nothing to do with the
first. -/
def twoWorkspaces : Accounts where
  workspaces := [⟨"acme", "Acme", "acme", 0, 0⟩, ⟨"globex", "Globex", "globex", 0, 0⟩]
  users := [⟨"owner", "owner@acme.test", "Owner", some "hash", 0, 0⟩,
    ⟨"ada", "ada@globex.test", "Ada", some "hash", 0, 0⟩]
  workspaceMembers := [⟨"member-1", "acme", "owner", .owner, 0, 0⟩,
    ⟨"member-2", "globex", "ada", .owner, 0, 0⟩]

theorem twoWorkspaces_constraints : twoWorkspaces.Constraints := by
  constructor <;> decide

/-- She is added to the first workspace, under another name. -/
def renamingAdd : WorkspaceOperation :=
  .addMember "owner" ⟨"ada@globex.test", some "Mallory", none⟩

/-- The second workspace shows her under that name. -/
def ShowsMallory (db : Accounts) : Bool :=
  match WorkspacesService.findMembers (fun _ => 0) db "globex" with
  | .ok [member] => member.user.displayName == "Mallory"
  | _ => false

theorem exists_renamed :
    let _ : CaseMapping := .ascii
    ∃ db', Performed "acme" twoWorkspaces [renamingAdd] db' ∧ ShowsMallory db' = true := by
  intro _
  have hcalls : (runCalls answered 3 0 (renamingAdd.program "acme") twoWorkspaces).any
      (fun (_, q, db') => q.ended?.isSome && ShowsMallory db') = true := by
    decide
  obtain ⟨out, db', hrun, hshows⟩ := exists_runs_of_runCalls answered_sound hcalls
  exact ⟨db', .cons hrun (.nil db'), hshows⟩

theorem otherWorkspace_framed_renamed :
    let _ : CaseMapping := .ascii
    ∃ db', Performed "acme" twoWorkspaces [renamingAdd] db'
      ∧ (WorkspacesService.findMembers (fun _ => 0) db' "globex").map
          (·.map (·.mask ["ada@globex.test"] ["ada@globex.test"]))
        = (WorkspacesService.findMembers (fun _ => 0) twoWorkspaces "globex").map
          (·.map (·.mask ["ada@globex.test"] ["ada@globex.test"])) := by
  intro _
  obtain ⟨db', hperformed, -⟩ := exists_renamed
  exact ⟨db', hperformed, (otherWorkspace_framed (by decide) twoWorkspaces_constraints
    (by decide) hperformed fun _ => 0).2⟩

/-- Adding a member to one workspace renames a member of another. -/
theorem addMember_renames_elsewhere :
    let _ : CaseMapping := .ascii
    twoWorkspaces.Constraints ∧ ∃ db', Performed "acme" twoWorkspaces [renamingAdd] db'
      ∧ WorkspacesService.findMembers (fun _ => 0) db' "globex"
        ≠ WorkspacesService.findMembers (fun _ => 0) twoWorkspaces "globex" := by
  intro _
  obtain ⟨db', hperformed, hshows⟩ := exists_renamed
  refine ⟨twoWorkspaces_constraints, db', hperformed, fun hsame => ?_⟩
  rw [ShowsMallory, hsame] at hshows
  exact absurd hshows (by decide)

end FlowPilot.Api
