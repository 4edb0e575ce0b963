import FlowPilot.Api.Database
import FlowPilot.Lib.Run
import FlowPilot.Lib.Table

/-!
# Users, workspaces and memberships

The tables behind the accounts of the API, the queries and writes of
`WorkspacesService`, `WorkspaceRolesGuard` and `AuthService` on them, and
these services as programs over their calls. A membership belongs to one
workspace; a user is shared by all of them.

Each statement is one call, and so is each `$transaction`. A write answers
with a code of Prisma where a constraint rejects it.
-/

namespace FlowPilot.Api

open Prog hiding pure throw bind tryCatch

/-! ## Rows -/

inductive WorkspaceRole where
  | owner
  | admin
  | member
  | viewer
deriving DecidableEq, Repr

structure Workspace where
  id : String
  name : String
  slug : String
  createdAt : Int
  updatedAt : Int
deriving DecidableEq, Repr

structure User where
  id : String
  email : String
  displayName : String
  passwordHash : Option String
  createdAt : Int
  updatedAt : Int
deriving DecidableEq, Repr

structure WorkspaceMember where
  id : String
  workspaceId : String
  userId : String
  role : WorkspaceRole
  createdAt : Int
  updatedAt : Int
deriving DecidableEq, Repr

structure Accounts where
  workspaces : List Workspace
  users : List User
  workspaceMembers : List WorkspaceMember
deriving DecidableEq, Repr

/-- What `hash` of the password library returns: never the empty string. -/
structure PasswordHash where
  value : String
  ne_empty : value ≠ ""

/-- `user.passwordHash` is truthy. -/
def User.HasPassword (user : User) : Prop := ∃ hash, user.passwordHash = some hash ∧ hash ≠ ""

/-! ## What is selected -/

/-- What the guard selects of a membership. -/
structure WorkspaceMembership where
  workspaceId : String
  role : WorkspaceRole
deriving DecidableEq, Repr

structure MembershipPolicySubject where
  id : String
  userId : String
  role : WorkspaceRole
deriving DecidableEq, Repr

structure UserResponse where
  id : String
  email : String
  displayName : String
  createdAt : Int
  updatedAt : Int
deriving DecidableEq, Repr

/-- `memberSelect`. -/
structure MemberResponse where
  id : String
  role : WorkspaceRole
  createdAt : Int
  updatedAt : Int
  user : UserResponse
deriving DecidableEq, Repr

/-- `workspaceInclude`. -/
structure WorkspaceResponse extends Workspace where
  members : List MemberResponse
deriving DecidableEq, Repr

def User.response (user : User) : UserResponse where
  id := user.id
  email := user.email
  displayName := user.displayName
  createdAt := user.createdAt
  updatedAt := user.updatedAt

def WorkspaceMember.subject (row : WorkspaceMember) : MembershipPolicySubject where
  id := row.id
  userId := row.userId
  role := row.role

/-- What the outside adds to a call: the time, the ids of new rows, the order
of ties, the password hash, and whether an update without data still sets
`updatedAt`. -/
structure AccountContext where
  now : Int
  uuid : String
  nestedUuid : String
  rank : String → Nat
  touches : Bool
  hash : PasswordHash

namespace Accounts

variable (db : Accounts) (rank : String → Nat)

/-! ## Queries -/

def findUser (id : String) : Option User := db.users.find? (·.id = id)

/-- `memberSelect`; a member has a user, by its foreign key. -/
def selectMember (row : WorkspaceMember) : Option MemberResponse :=
  (db.findUser row.userId).map fun user =>
    { id := row.id, role := row.role, createdAt := row.createdAt, updatedAt := row.updatedAt
      user := user.response }

/-- `workspaceMember.findUnique({ where: { workspaceId_userId } })`. -/
def findUniqueMember (workspaceId userId : String) : Option WorkspaceMember :=
  db.workspaceMembers.find? fun row => row.workspaceId = workspaceId ∧ row.userId = userId

/-- `workspaceMember.findFirst({ where: { id, workspaceId } })`. -/
def findFirstMember (id workspaceId : String) : Option WorkspaceMember :=
  db.workspaceMembers.find? fun row => row.id = id ∧ row.workspaceId = workspaceId

/-- `workspaceMember.findMany({ where: { workspaceId }, ...memberListQuery })`. -/
def findManyMember (workspaceId : String) : List MemberResponse :=
  (orderByAsc (fun row => rank row.id) (·.createdAt)
    (db.workspaceMembers.filter (·.workspaceId = workspaceId))).filterMap db.selectMember

/-- `workspace.findUnique({ where: { id }, include: workspaceInclude })`. -/
def findUniqueWorkspace (id : String) : Option WorkspaceResponse :=
  (db.workspaces.find? (·.id = id)).map fun workspace =>
    { workspace with members := db.findManyMember rank id }

/-- `user.findUnique({ where: { email } })`. -/
def findUniqueUser (email : String) : Option User := db.users.find? (·.email = email)

/-! ## Writes -/

variable (ctx : AccountContext)

/-- The row of a new user. -/
def newUser (email displayName : String) (passwordHash : Option String) : User where
  id := ctx.uuid
  email
  displayName
  passwordHash
  createdAt := ctx.now
  updatedAt := ctx.now

/-- `user.create`. Ids and emails are unique. -/
def createUser (email displayName : String) (passwordHash : Option String) :
    Except String (User × Accounts) :=
  if db.users.any fun row => row.id = ctx.uuid ∨ row.email = email then .error "P2002"
  else
    let user := newUser ctx email displayName passwordHash
    .ok (user, { db with users := db.users ++ [user] })

/-- `user.update({ where: { id }, data: { displayName, passwordHash } })`. -/
def updateUser (id displayName passwordHash : String) : Except String (User × Accounts) :=
  match db.findUser id with
  | none => .error "P2025"
  | some user =>
      let change := fun user : User =>
        { user with displayName, passwordHash := some passwordHash, updatedAt := ctx.now }
      .ok (change user, { db with
        users := db.users.map fun row => if row.id = id then change row else row })

/-- The `update` of `user.upsert`. -/
def renameUser (displayName : Option String) (user : User) : User :=
  match displayName with
  | some displayName => { user with displayName, updatedAt := ctx.now }
  | none => if ctx.touches then { user with updatedAt := ctx.now } else user

/-- `user.upsert({ where: { email }, create, update })`. -/
def upsertUser (email createName : String) (updateName : Option String) :
    Except String (User × Accounts) :=
  match db.findUniqueUser email with
  | none => db.createUser ctx email createName none
  | some user =>
      .ok (renameUser ctx updateName user, { db with
        users := db.users.map fun row =>
          if row.email = email then renameUser ctx updateName row else row })

/-- The row of a new membership. -/
def newMember (workspaceId userId : String) (role : WorkspaceRole) : WorkspaceMember where
  id := ctx.nestedUuid
  workspaceId
  userId
  role
  createdAt := ctx.now
  updatedAt := ctx.now

/-- `workspaceMember.create`. Ids and `(workspaceId, userId)` are unique, and
the workspace and the user exist. -/
def createMember (workspaceId userId : String) (role : WorkspaceRole) :
    Except String (Option MemberResponse × Accounts) :=
  if db.workspaceMembers.any fun row =>
      row.id = ctx.nestedUuid ∨ row.workspaceId = workspaceId ∧ row.userId = userId then
    .error "P2002"
  else if db.workspaces.any (·.id = workspaceId) ∧ db.users.any (·.id = userId) then
    let row := newMember ctx workspaceId userId role
    .ok (db.selectMember row, { db with workspaceMembers := db.workspaceMembers ++ [row] })
  else .error "P2003"

/-- What the transaction of `addMember` writes. -/
structure AddMemberData where
  workspaceId : String
  email : String
  createName : String
  updateName : Option String
  role : WorkspaceRole

/-- The transaction of `addMember`: both rows or none. -/
def addMember (data : AddMemberData) : Except String (Option MemberResponse × Accounts) := do
  let (user, db') ← db.upsertUser ctx data.email data.createName data.updateName
  db'.createMember ctx data.workspaceId user.id data.role

/-- `workspaceMember.update({ where: { id }, data: { role } })`. -/
def updateMember (id : String) (role : WorkspaceRole) :
    Except String (Option MemberResponse × Accounts) :=
  match db.workspaceMembers.find? (·.id = id) with
  | none => .error "P2025"
  | some row =>
      let change := fun row : WorkspaceMember => { row with role, updatedAt := ctx.now }
      .ok (db.selectMember (change row), { db with
        workspaceMembers := db.workspaceMembers.map fun row =>
          if row.id = id then change row else row })

/-- `workspaceMember.delete({ where: { id } })`. -/
def deleteMember (id : String) : Except String (Unit × Accounts) :=
  if db.workspaceMembers.any (·.id = id) then
    .ok ((), { db with workspaceMembers := db.workspaceMembers.filter (·.id ≠ id) })
  else .error "P2025"

/-- `data` of the `workspace.create` of `create`. -/
structure CreateWorkspaceData where
  name : String
  slug : String
  ownerUserId : String

/-- `workspace.create` with a nested `members.create`, both rows or none. -/
def createWorkspace (data : CreateWorkspaceData) : Except String (WorkspaceResponse × Accounts) :=
  if db.workspaces.any fun row => row.id = ctx.uuid ∨ row.slug = data.slug then .error "P2002"
  else
    let workspace : Workspace :=
      { id := ctx.uuid, name := data.name, slug := data.slug, createdAt := ctx.now
        updatedAt := ctx.now }
    let created := { db with workspaces := db.workspaces ++ [workspace] }
    (created.createMember ctx ctx.uuid data.ownerUserId .owner).map fun (_, db') =>
      ({ workspace with members := db'.findManyMember ctx.rank ctx.uuid }, db')

/-! ## Constraints -/

/-- The constraints of the schema, which every write keeps
(`AccountOp.run_constraints`). -/
structure Constraints : Prop where
  workspace_ids : (db.workspaces.map (·.id)).Nodup
  slugs : (db.workspaces.map (·.slug)).Nodup
  user_ids : (db.users.map (·.id)).Nodup
  emails : (db.users.map (·.email)).Nodup
  member_ids : (db.workspaceMembers.map (·.id)).Nodup
  memberships : (db.workspaceMembers.map fun row => (row.workspaceId, row.userId)).Nodup
  member_workspace : ∀ row ∈ db.workspaceMembers, ∃ w ∈ db.workspaces, w.id = row.workspaceId
  member_user : ∀ row ∈ db.workspaceMembers, ∃ u ∈ db.users, u.id = row.userId

/-! ## What the writes do -/

variable {db ctx} {db' : Accounts}

theorem map_eq_ok {α β : Type} {f : α → β} {result : Except String α} {b : β}
    (h : result.map f = .ok b) : ∃ a, result = .ok a ∧ f a = b := by
  cases result with
  | error code => cases h
  | ok a => exact ⟨a, rfl, Except.ok.inj h⟩

theorem createUser_eq_ok {email displayName : String} {passwordHash : Option String} {user : User}
    (h : db.createUser ctx email displayName passwordHash = .ok (user, db')) :
    (∀ row ∈ db.users, row.id ≠ ctx.uuid ∧ row.email ≠ email)
      ∧ user = newUser ctx email displayName passwordHash
      ∧ db' = { db with users := db.users ++ [user] } := by
  unfold createUser at h
  split at h
  · cases h
  · rename_i hnew
    cases h
    exact ⟨by simpa using hnew, rfl, rfl⟩

theorem updateUser_eq_ok {id displayName passwordHash : String} {user : User}
    (h : db.updateUser ctx id displayName passwordHash = .ok (user, db')) :
    (∃ row, db.findUser id = some row)
      ∧ db' = { db with users := db.users.map fun row =>
          if row.id = id then
            { row with displayName, passwordHash := some passwordHash, updatedAt := ctx.now }
          else row } := by
  unfold updateUser at h
  split at h
  · cases h
  · rename_i row hrow
    cases h
    exact ⟨⟨row, hrow⟩, rfl⟩

theorem upsertUser_eq_ok {email createName : String} {updateName : Option String} {user : User}
    (h : db.upsertUser ctx email createName updateName = .ok (user, db')) :
    (∃ row, db.findUniqueUser email = some row ∧ user = renameUser ctx updateName row
        ∧ db' = { db with users := db.users.map fun row =>
            if row.email = email then renameUser ctx updateName row else row })
      ∨ db.createUser ctx email createName none = .ok (user, db') := by
  unfold upsertUser at h
  split at h
  · exact Or.inr h
  · rename_i row hrow
    cases h
    exact Or.inl ⟨row, hrow, rfl, rfl⟩

theorem createMember_eq_ok {workspaceId userId : String} {role : WorkspaceRole}
    {member : Option MemberResponse}
    (h : db.createMember ctx workspaceId userId role = .ok (member, db')) :
    (∀ row ∈ db.workspaceMembers,
        row.id ≠ ctx.nestedUuid ∧ ¬ (row.workspaceId = workspaceId ∧ row.userId = userId))
      ∧ (∃ w ∈ db.workspaces, w.id = workspaceId) ∧ (∃ u ∈ db.users, u.id = userId)
      ∧ db' = { db with
          workspaceMembers := db.workspaceMembers ++ [newMember ctx workspaceId userId role] } := by
  unfold createMember at h
  split at h
  · cases h
  · rename_i hnew
    split at h
    · rename_i hrefs
      cases h
      simp only [List.any_eq_true, decide_eq_true_eq] at hrefs
      exact ⟨by simpa using hnew, hrefs.1, hrefs.2, rfl⟩
    · cases h

theorem addMember_eq_ok {data : AddMemberData} {member : Option MemberResponse}
    (h : db.addMember ctx data = .ok (member, db')) :
    ∃ user db₁, db.upsertUser ctx data.email data.createName data.updateName = .ok (user, db₁)
      ∧ db₁.createMember ctx data.workspaceId user.id data.role = .ok (member, db') := by
  unfold addMember at h
  cases hupsert : db.upsertUser ctx data.email data.createName data.updateName with
  | error code =>
      rw [hupsert] at h
      cases h
  | ok result =>
      rw [hupsert] at h
      exact ⟨result.1, result.2, rfl, h⟩

theorem updateMember_eq_ok {id : String} {role : WorkspaceRole} {member : Option MemberResponse}
    (h : db.updateMember ctx id role = .ok (member, db')) :
    db' = { db with workspaceMembers := db.workspaceMembers.map fun row =>
      if row.id = id then { row with role, updatedAt := ctx.now } else row } := by
  unfold updateMember at h
  split at h
  · cases h
  · cases h
    rfl

theorem deleteMember_eq_ok {id : String} (h : db.deleteMember id = .ok ((), db')) :
    db' = { db with workspaceMembers := db.workspaceMembers.filter (·.id ≠ id) } := by
  unfold deleteMember at h
  split at h
  · cases h
    rfl
  · cases h

theorem createWorkspace_eq_ok {data : CreateWorkspaceData} {workspace : WorkspaceResponse}
    (h : db.createWorkspace ctx data = .ok (workspace, db')) :
    (∀ row ∈ db.workspaces, row.id ≠ ctx.uuid ∧ row.slug ≠ data.slug)
      ∧ ∃ (created : Workspace) (member : Option MemberResponse), created.id = ctx.uuid
        ∧ created.slug = data.slug
        ∧ Accounts.createMember { db with workspaces := db.workspaces ++ [created] } ctx ctx.uuid
            data.ownerUserId .owner = .ok (member, db') := by
  unfold createWorkspace at h
  split at h
  · cases h
  · rename_i hnew
    obtain ⟨⟨member, db₁⟩, hmember, heq⟩ := map_eq_ok h
    cases heq
    exact ⟨by simpa using hnew, _, member, rfl, rfl, hmember⟩

/-- An update that keeps the ids is found under them. -/
theorem findUser_update {p : User → Prop} [DecidablePred p] {f : User → User}
    (hid : ∀ user, (f user).id = user.id) (id : String) :
    findUser { db with users := db.users.map fun row => if p row then f row else row } id
      = (db.findUser id).map fun row => if p row then f row else row := by
  rw [findUser, findUser, List.find?_map]
  congr 2
  funext row
  simp only [Function.comp]
  split <;> simp [hid]

/-! ## The constraints hold -/

theorem renameUser_id (displayName : Option String) (user : User) :
    (renameUser ctx displayName user).id = user.id := by
  unfold renameUser
  split
  · rfl
  · split <;> rfl

theorem renameUser_email (displayName : Option String) (user : User) :
    (renameUser ctx displayName user).email = user.email := by
  unfold renameUser
  split
  · rfl
  · split <;> rfl

theorem renameUser_passwordHash (displayName : Option String) (user : User) :
    (renameUser ctx displayName user).passwordHash = user.passwordHash := by
  unfold renameUser
  split
  · rfl
  · split <;> rfl

namespace Constraints

theorem addUser (h : db.Constraints) {user : User}
    (hnew : ∀ row ∈ db.users, row.id ≠ user.id ∧ row.email ≠ user.email) :
    Constraints { db with users := db.users ++ [user] } where
  workspace_ids := h.workspace_ids
  slugs := h.slugs
  user_ids := Table.nodup_insert h.user_ids fun row hrow => (hnew row hrow).1
  emails := Table.nodup_insert h.emails fun row hrow => (hnew row hrow).2
  member_ids := h.member_ids
  memberships := h.memberships
  member_workspace := h.member_workspace
  member_user row hrow := by
    obtain ⟨user', huser', hid⟩ := h.member_user row hrow
    exact ⟨user', List.mem_append_left _ huser', hid⟩

theorem updateUsers (h : db.Constraints) {p : User → Prop} [DecidablePred p] {f : User → User}
    (hid : ∀ user, (f user).id = user.id) (hemail : ∀ user, (f user).email = user.email) :
    Constraints { db with users := db.users.map fun row => if p row then f row else row } where
  workspace_ids := h.workspace_ids
  slugs := h.slugs
  user_ids := by
    have hids : (db.users.map fun row => if p row then f row else row).map (·.id)
        = db.users.map (·.id) := Table.map_update hid
    simpa only [hids] using h.user_ids
  emails := by
    have hemails : (db.users.map fun row => if p row then f row else row).map (·.email)
        = db.users.map (·.email) := Table.map_update hemail
    simpa only [hemails] using h.emails
  member_ids := h.member_ids
  memberships := h.memberships
  member_workspace := h.member_workspace
  member_user row hrow := by
    obtain ⟨user, huser, hrowid⟩ := h.member_user row hrow
    refine ⟨_, List.mem_map_of_mem huser, ?_⟩
    split
    · exact (hid user).trans hrowid
    · exact hrowid

theorem addMember (h : db.Constraints) {member : WorkspaceMember}
    (hnew : ∀ row ∈ db.workspaceMembers, row.id ≠ member.id
      ∧ ¬ (row.workspaceId = member.workspaceId ∧ row.userId = member.userId))
    (hworkspace : ∃ w ∈ db.workspaces, w.id = member.workspaceId)
    (huser : ∃ u ∈ db.users, u.id = member.userId) :
    Constraints { db with workspaceMembers := db.workspaceMembers ++ [member] } where
  workspace_ids := h.workspace_ids
  slugs := h.slugs
  user_ids := h.user_ids
  emails := h.emails
  member_ids := Table.nodup_insert h.member_ids fun row hrow => (hnew row hrow).1
  memberships := Table.nodup_insert h.memberships fun row hrow heq =>
    (hnew row hrow).2 (Prod.mk.inj heq)
  member_workspace row hrow := by
    rcases List.mem_append.mp hrow with hrow | hrow
    · exact h.member_workspace row hrow
    · obtain rfl := List.mem_singleton.mp hrow
      exact hworkspace
  member_user row hrow := by
    rcases List.mem_append.mp hrow with hrow | hrow
    · exact h.member_user row hrow
    · obtain rfl := List.mem_singleton.mp hrow
      exact huser

theorem updateMembers (h : db.Constraints) {p : WorkspaceMember → Prop} [DecidablePred p]
    {f : WorkspaceMember → WorkspaceMember} (hid : ∀ row, (f row).id = row.id)
    (hpair : ∀ row, ((f row).workspaceId, (f row).userId) = (row.workspaceId, row.userId)) :
    Constraints { db with
      workspaceMembers := db.workspaceMembers.map fun row => if p row then f row else row } where
  workspace_ids := h.workspace_ids
  slugs := h.slugs
  user_ids := h.user_ids
  emails := h.emails
  member_ids := by
    have hids : (db.workspaceMembers.map fun row => if p row then f row else row).map (·.id)
        = db.workspaceMembers.map (·.id) := Table.map_update hid
    simpa only [hids] using h.member_ids
  memberships := by
    have hpairs : (db.workspaceMembers.map fun row => if p row then f row else row).map
          (fun row => (row.workspaceId, row.userId))
        = db.workspaceMembers.map fun row => (row.workspaceId, row.userId) :=
      Table.map_update hpair
    simpa only [hpairs] using h.memberships
  member_workspace row hrow := by
    rcases Table.mem_update.mp hrow with ⟨hrow, -⟩ | ⟨old, hold, -, rfl⟩
    · exact h.member_workspace row hrow
    · rw [(Prod.mk.inj (hpair old)).1]
      exact h.member_workspace old hold
  member_user row hrow := by
    rcases Table.mem_update.mp hrow with ⟨hrow, -⟩ | ⟨old, hold, -, rfl⟩
    · exact h.member_user row hrow
    · rw [(Prod.mk.inj (hpair old)).2]
      exact h.member_user old hold

theorem filterMembers (h : db.Constraints) (keep : WorkspaceMember → Bool) :
    Constraints { db with workspaceMembers := db.workspaceMembers.filter keep } where
  workspace_ids := h.workspace_ids
  slugs := h.slugs
  user_ids := h.user_ids
  emails := h.emails
  member_ids := h.member_ids.sublist (List.filter_sublist.map _)
  memberships := h.memberships.sublist (List.filter_sublist.map _)
  member_workspace row hrow := h.member_workspace row (List.mem_of_mem_filter hrow)
  member_user row hrow := h.member_user row (List.mem_of_mem_filter hrow)

theorem addWorkspace (h : db.Constraints) {workspace : Workspace}
    (hnew : ∀ row ∈ db.workspaces, row.id ≠ workspace.id ∧ row.slug ≠ workspace.slug) :
    Constraints { db with workspaces := db.workspaces ++ [workspace] } where
  workspace_ids := Table.nodup_insert h.workspace_ids fun row hrow => (hnew row hrow).1
  slugs := Table.nodup_insert h.slugs fun row hrow => (hnew row hrow).2
  user_ids := h.user_ids
  emails := h.emails
  member_ids := h.member_ids
  memberships := h.memberships
  member_workspace row hrow := by
    obtain ⟨w, hw, hid⟩ := h.member_workspace row hrow
    exact ⟨w, List.mem_append_left _ hw, hid⟩
  member_user := h.member_user

theorem createUser (h : db.Constraints) {email displayName : String}
    {passwordHash : Option String} {user : User}
    (hcreate : db.createUser ctx email displayName passwordHash = .ok (user, db')) :
    db'.Constraints := by
  obtain ⟨hnew, rfl, rfl⟩ := createUser_eq_ok hcreate
  exact h.addUser hnew

theorem createMember (h : db.Constraints) {workspaceId userId : String} {role : WorkspaceRole}
    {member : Option MemberResponse}
    (hcreate : db.createMember ctx workspaceId userId role = .ok (member, db')) :
    db'.Constraints := by
  obtain ⟨hnew, hworkspace, huser, rfl⟩ := createMember_eq_ok hcreate
  exact h.addMember hnew hworkspace huser

end Constraints

end Accounts

end FlowPilot.Api
