import FlowPilot.Api.Accounts
import FlowPilot.Lib.Pool

/-!
# The services of the accounts

`WorkspaceRolesGuard`, the member management of `WorkspacesService` behind
it, and `AuthService.register`, as programs over the calls they make, and
any number of such requests at once over one database (`accountSystem`).
-/

namespace FlowPilot.Api

open Prog hiding pure throw bind tryCatch

/-! ## Calls -/

/-- What these services throw. -/
inductive AccountError where
  | prismaClientKnownRequestError (code : String)
  | conflictException (message : String)
  | forbiddenException (message : String)
  | notFoundException (message : String)
  | error (message : String)
deriving DecidableEq, Repr

/-- What `register` selects of a user. -/
structure Credentials where
  id : String
  passwordHash : Option String
deriving DecidableEq, Repr

inductive AccountCall where
  /-- The read of the guard. -/
  | findMembership (workspaceId userId : String)
  /-- The read of `getActorMembership`. -/
  | findUniqueMember (workspaceId userId : String)
  | findFirstMember (id workspaceId : String)
  | addMember (data : Accounts.AddMemberData)
  | updateMember (id : String) (role : WorkspaceRole)
  | deleteMember (id : String)
  | createWorkspace (data : Accounts.CreateWorkspaceData)
  | findUniqueUser (email : String)
  | updateUser (id displayName passwordHash : String)
  | createUser (email displayName passwordHash : String)

def AccountCall.Result : AccountCall → Type
  | findMembership _ _ => Option WorkspaceMembership
  | findUniqueMember _ _ => Option MembershipPolicySubject
  | findFirstMember _ _ => Option MembershipPolicySubject
  | addMember _ => Option MemberResponse
  | updateMember _ _ => Option MemberResponse
  | deleteMember _ => Unit
  | createWorkspace _ => WorkspaceResponse
  | findUniqueUser _ => Option Credentials
  | updateUser _ _ _ => UserResponse
  | createUser _ _ _ => UserResponse

/-- The answer of a call and the tables after it, or Prisma's code for the
constraint that rejects it. -/
def AccountCall.run : (c : AccountCall) → AccountContext → Accounts →
    Except String (c.Result × Accounts)
  | findMembership workspaceId userId, _, db =>
      .ok ((db.findUniqueMember workspaceId userId).map fun row => ⟨row.workspaceId, row.role⟩, db)
  | findUniqueMember workspaceId userId, _, db =>
      .ok ((db.findUniqueMember workspaceId userId).map (·.subject), db)
  | findFirstMember id workspaceId, _, db =>
      .ok ((db.findFirstMember id workspaceId).map (·.subject), db)
  | addMember data, ctx, db => db.addMember ctx data
  | updateMember id role, ctx, db => db.updateMember ctx id role
  | deleteMember id, _, db => db.deleteMember id
  | createWorkspace data, ctx, db => db.createWorkspace ctx data
  | findUniqueUser email, _, db =>
      .ok ((db.findUniqueUser email).map fun user => ⟨user.id, user.passwordHash⟩, db)
  | updateUser id displayName passwordHash, ctx, db =>
      (db.updateUser ctx id displayName passwordHash).map fun (user, db') => (user.response, db')
  | createUser email displayName passwordHash, ctx, db =>
      (db.createUser ctx email displayName (some passwordHash)).map
        fun (user, db') => (user.response, db')

inductive AccountOp where
  | hash (password : String)
  | db (c : AccountCall)

def AccountOp.Result : AccountOp → Type
  | hash _ => PasswordHash
  | db c => c.Result

abbrev AccountRequest (α : Type) := Prog AccountOp AccountOp.Result AccountError α

abbrev AccountEvent := Event AccountOp AccountOp.Result AccountError

abbrev AccountHistory := List AccountEvent

namespace AccountRequest

/-- `hash(password, 12)`. -/
def hash (password : String) : AccountRequest PasswordHash := Prog.perform (AccountOp.hash password)

def prisma (c : AccountCall) : AccountRequest c.Result := Prog.perform (AccountOp.db c)

/-- The result of a function that calls nothing. -/
def ofResult {α : Type} : Except AccountError α → AccountRequest α
  | .ok a => .pure a
  | .error e => .throw e

/-- The `catch` blocks: a violated unique constraint is a conflict. -/
def rethrowConflict {α : Type} (message : String) : AccountError → AccountRequest α
  | .prismaClientKnownRequestError "P2002" => throw (.conflictException message)
  | error => throw error

/-- It only throws. -/
theorem rethrowConflict_wp {α : Type} {A : AccountHistory → AccountEvent → Prop}
    {P : AccountHistory → AccountOp → Prop} {h : AccountHistory} {message : String}
    {e : AccountError} {Q : α → AccountHistory → Prop} {E : AccountError → AccountHistory → Prop}
    (hE : ∀ e, E e h) : wp A P (rethrowConflict message e) h Q E := by
  unfold rethrowConflict
  split
  · exact hE _
  · exact hE _

end AccountRequest

/-- The lower-case mapping of strings. -/
class CaseMapping where
  toLowerCase : String → String

section Services

open AccountRequest

/-! ## `WorkspaceRolesGuard` -/

/-- The user of a request, from its token. -/
structure AuthenticatedUser where
  sub : String
  workspaceId : Option String
deriving DecidableEq, Repr

/-- `request.params`. -/
structure RequestParams where
  id : Option String
  workspaceId : Option String
deriving DecidableEq, Repr

namespace WorkspaceRolesGuard

/-- `canActivate`, given the roles that the handler requires. -/
def canActivate (requiredRoles : List WorkspaceRole) (params : RequestParams)
    (user : AuthenticatedUser) : AccountRequest Bool :=
  if requiredRoles.length = 0 then pure true
  else
    match (params.workspaceId <|> params.id <|> user.workspaceId).getD "" with
    | "" => throw (.forbiddenException "Workspace context is required")
    | workspaceId => do
        match ← prisma (.findMembership workspaceId user.sub) with
        | some membership =>
            if membership.role ∈ requiredRoles then pure true
            else throw (.forbiddenException "Workspace role is not allowed")
        | none => throw (.forbiddenException "Workspace role is not allowed")

end WorkspaceRolesGuard

/-! ## `WorkspacesService` -/

structure CreateWorkspaceDto where
  name : String
  slug : String

structure AddWorkspaceMemberDto where
  email : String
  displayName : Option String
  role : Option WorkspaceRole

namespace WorkspacesService

/-! ### The policy -/

def assertCanAssignRole (actorRole nextRole : WorkspaceRole) : Except AccountError Unit := do
  if nextRole = .owner then
    throw (.forbiddenException "Owner role cannot be assigned through member management")
  if actorRole = .admin ∧ nextRole = .admin then
    throw (.forbiddenException "Admins cannot assign admin role")

def assertCanUpdateMember (actor member : MembershipPolicySubject) (nextRole : WorkspaceRole) :
    Except AccountError Unit := do
  if member.role = .owner ∨ nextRole = .owner then
    throw (.forbiddenException "Owner role cannot be changed through member management")
  if actor.id = member.id then
    throw (.forbiddenException "Members cannot change their own role")
  if actor.role = .admin then
    if member.role = .admin ∨ nextRole = .admin then
      throw (.forbiddenException "Admins can only manage member and viewer roles")

def assertCanRemoveMember (actor member : MembershipPolicySubject) : Except AccountError Unit := do
  if member.role = .owner then
    throw (.forbiddenException "Owner members cannot be removed through member management")
  if actor.id = member.id then
    throw (.forbiddenException "Members cannot remove themselves")
  if actor.role = .admin ∧ member.role = .admin then
    throw (.forbiddenException "Admins cannot remove admin members")

/-! ### The operations -/

def getActorMembership (workspaceId actorUserId : String) :
    AccountRequest MembershipPolicySubject := do
  match ← prisma (.findUniqueMember workspaceId actorUserId) with
  | some membership => pure membership
  | none => throw (.forbiddenException "Workspace membership is required")

def getMember (workspaceId memberId : String) : AccountRequest MembershipPolicySubject := do
  match ← prisma (.findFirstMember memberId workspaceId) with
  | some member => pure member
  | none => throw (.notFoundException "Workspace member not found")

/-- `dto.displayName ? { displayName: dto.displayName } : {}`. -/
def updateName (dto : AddWorkspaceMemberDto) : Option String :=
  dto.displayName.filter (· ≠ "")

/-- What `addMember` writes. -/
def addMemberData [CaseMapping] (workspaceId : String) (dto : AddWorkspaceMemberDto) :
    Accounts.AddMemberData where
  workspaceId
  email := CaseMapping.toLowerCase dto.email
  createName := dto.displayName.getD dto.email
  updateName := updateName dto
  role := dto.role.getD .member

def addMember [CaseMapping] (workspaceId actorUserId : String) (dto : AddWorkspaceMemberDto) :
    AccountRequest (Option MemberResponse) := do
  let actor ← getActorMembership workspaceId actorUserId
  let role := dto.role.getD .member
  ofResult (assertCanAssignRole actor.role role)
  Prog.tryCatch (prisma (.addMember (addMemberData workspaceId dto)))
    (rethrowConflict "User is already a member of this workspace")

def updateMemberRole (workspaceId memberId actorUserId : String) (nextRole : WorkspaceRole) :
    AccountRequest (Option MemberResponse) := do
  let actor ← getActorMembership workspaceId actorUserId
  let member ← getMember workspaceId memberId
  ofResult (assertCanUpdateMember actor member nextRole)
  prisma (.updateMember memberId nextRole)

def removeMember (workspaceId memberId actorUserId : String) : AccountRequest Unit := do
  let actor ← getActorMembership workspaceId actorUserId
  let member ← getMember workspaceId memberId
  ofResult (assertCanRemoveMember actor member)
  prisma (.deleteMember memberId)

def create (dto : CreateWorkspaceDto) (ownerUserId : String) : AccountRequest WorkspaceResponse :=
  Prog.tryCatch (prisma (.createWorkspace ⟨dto.name, dto.slug, ownerUserId⟩))
    (rethrowConflict "Workspace slug already exists")

/-! ### The reads, on the tables as they stand -/

def findOne (rank : String → Nat) (accounts : Accounts) (id : String) :
    Except AccountError WorkspaceResponse :=
  match accounts.findUniqueWorkspace rank id with
  | some workspace => .ok workspace
  | none => .error (.notFoundException "Workspace not found")

def ensureWorkspaceExists (accounts : Accounts) (workspaceId : String) : Except AccountError Unit :=
  match accounts.workspaces.find? (·.id = workspaceId) with
  | some _ => .ok ()
  | none => .error (.notFoundException "Workspace not found")

def findMembers (rank : String → Nat) (accounts : Accounts) (workspaceId : String) :
    Except AccountError (List MemberResponse) := do
  ensureWorkspaceExists accounts workspaceId
  return accounts.findManyMember rank workspaceId

end WorkspacesService

/-! ## The member routes of `WorkspacesController` -/

inductive MemberRequest where
  | addMember (dto : AddWorkspaceMemberDto)
  | updateMember (memberId : String) (role : WorkspaceRole)
  | removeMember (memberId : String)

/-- The handler, behind the guard that admits owners and admins. -/
def MemberRequest.handle [CaseMapping] (id : String) (user : AuthenticatedUser)
    (request : MemberRequest) : AccountRequest Unit := do
  let _ ← WorkspaceRolesGuard.canActivate [.owner, .admin] ⟨some id, none⟩ user
  match request with
  | addMember dto =>
      let _ ← WorkspacesService.addMember id user.sub dto
      pure ()
  | updateMember memberId role =>
      let _ ← WorkspacesService.updateMemberRole id memberId user.sub role
      pure ()
  | removeMember memberId => WorkspacesService.removeMember id memberId user.sub

/-! ## `AuthService` -/

structure RegisterDto where
  email : String
  password : String
  displayName : String

namespace AuthService

/-- `existingUser?.passwordHash` is truthy. -/
def hasPassword (existingUser : Option Credentials) : Bool :=
  match existingUser with
  | some ⟨_, some passwordHash⟩ => passwordHash ≠ ""
  | _ => false

def register [CaseMapping] (dto : RegisterDto) : AccountRequest UserResponse := do
  let email := CaseMapping.toLowerCase dto.email
  let passwordHash ← hash dto.password
  Prog.tryCatch
    (do
      let existingUser ← prisma (.findUniqueUser email)
      if hasPassword existingUser then throw (.conflictException "User email already exists")
      else
        match existingUser with
        | some user => prisma (.updateUser user.id dto.displayName passwordHash.value)
        | none => prisma (.createUser email dto.displayName passwordHash.value))
    (rethrowConflict "User email already exists")

end AuthService

end Services

/-! ## Requests over one database -/

/-- The effect of a call that is not refused. -/
def AccountOp.run : (op : AccountOp) → AccountContext → Accounts →
    Except String (op.Result × Accounts)
  | .hash _, ctx, accounts => .ok (ctx.hash, accounts)
  | .db c, ctx, accounts => c.run ctx accounts

/-- The errors a call may throw. Prisma reports a violated unique constraint
where there is one. -/
def AccountOp.Throws (op : AccountOp) (ctx : AccountContext) (db : Accounts) :
    AccountError → Prop
  | .error _ => True
  | .prismaClientKnownRequestError code =>
      ∃ c, op = .db c ∧ (code = "P2002" → c.run ctx db = .error code)
  | _ => False

/-- One call against the database. -/
def AccountOp.exec (op : AccountOp) (db : Accounts) (reply : Reply AccountError op.Result)
    (db' : Accounts) : Prop :=
  ∃ ctx, match reply with
    | .ok r => op.run ctx db = .ok (r, db')
    | .lost e => op.Throws ctx db e ∧ ∃ r, op.run ctx db = .ok (r, db')
    | .failed e => op.Throws ctx db e ∧ db' = db

/-- A call has its effect or none. -/
theorem AccountOp.exec.effect {op : AccountOp} {db db' : Accounts}
    {reply : Reply AccountError op.Result} (h : op.exec db reply db') :
    db' = db ∨ ∃ ctx r, op.run ctx db = .ok (r, db') := by
  obtain ⟨ctx, h⟩ := h
  cases reply with
  | ok r => exact Or.inr ⟨ctx, r, h⟩
  | lost e => exact Or.inr ⟨ctx, h.2⟩
  | failed e => exact Or.inl h.2

/-- The calls that only read. -/
def AccountOp.Reads : AccountOp → Bool
  | .hash _ => true
  | .db (.findMembership _ _) => true
  | .db (.findUniqueMember _ _) => true
  | .db (.findFirstMember _ _) => true
  | .db (.findUniqueUser _) => true
  | _ => false

theorem AccountOp.exec_reads {op : AccountOp} {accounts accounts' : Accounts}
    {reply : Reply AccountError op.Result} (hop : op.Reads = true)
    (hexec : op.exec accounts reply accounts') : accounts' = accounts := by
  rcases hexec.effect with rfl | ⟨ctx, r, hrun⟩
  · rfl
  · cases op with
    | hash password =>
        cases hrun
        rfl
    | db c =>
        cases c with
        | findMembership workspaceId userId =>
            cases hrun
            rfl
        | findUniqueMember workspaceId userId =>
            cases hrun
            rfl
        | findFirstMember id workspaceId =>
            cases hrun
            rfl
        | findUniqueUser email =>
            cases hrun
            rfl
        | _ => cases hop

/-- Every call keeps the constraints. -/
theorem AccountOp.run_constraints {op : AccountOp} {ctx : AccountContext} {accounts : Accounts}
    {r : op.Result} {accounts' : Accounts} (h : accounts.Constraints)
    (hrun : op.run ctx accounts = .ok (r, accounts')) : accounts'.Constraints := by
  cases op with
  | hash password =>
      cases hrun
      exact h
  | db c =>
      cases c with
      | addMember data =>
          obtain ⟨user, db₁, hupsert, hcreate⟩ := Accounts.addMember_eq_ok hrun
          refine Accounts.Constraints.createMember ?_ hcreate
          rcases Accounts.upsertUser_eq_ok hupsert with ⟨row, -, -, rfl⟩ | hnew
          · exact h.updateUsers (Accounts.renameUser_id _) (Accounts.renameUser_email _)
          · exact h.createUser hnew
      | updateMember id role =>
          obtain rfl := Accounts.updateMember_eq_ok hrun
          exact h.updateMembers (fun _ => rfl) fun _ => rfl
      | deleteMember id =>
          obtain rfl := Accounts.deleteMember_eq_ok hrun
          exact h.filterMembers _
      | createWorkspace data =>
          obtain ⟨hnew, created, member, hid, hslug, hcreate⟩ := Accounts.createWorkspace_eq_ok hrun
          exact (h.addWorkspace (hid ▸ hslug ▸ hnew)).createMember hcreate
      | updateUser id displayName passwordHash =>
          obtain ⟨⟨user, db₁⟩, hupdate, heq⟩ := Accounts.map_eq_ok hrun
          cases heq
          obtain ⟨-, rfl⟩ := Accounts.updateUser_eq_ok hupdate
          exact h.updateUsers (fun _ => rfl) fun _ => rfl
      | createUser email displayName passwordHash =>
          obtain ⟨⟨user, db₁⟩, hcreate, heq⟩ := Accounts.map_eq_ok hrun
          cases heq
          exact h.createUser hcreate
      | _ =>
          cases hrun
          exact h

theorem AccountOp.exec_constraints {op : AccountOp} {accounts accounts' : Accounts}
    {reply : Reply AccountError op.Result} (h : accounts.Constraints)
    (hexec : op.exec accounts reply accounts') : accounts'.Constraints := by
  rcases hexec.effect with rfl | ⟨ctx, r, hrun⟩
  · exact h
  · exact run_constraints h hrun

inductive AccountJob where
  | createWorkspace (dto : CreateWorkspaceDto) (ownerUserId : String)
  | members (id : String) (user : AuthenticatedUser) (request : MemberRequest)
  | register (dto : RegisterDto)

def AccountJob.program [CaseMapping] : AccountJob → AccountRequest Unit
  | .createWorkspace dto ownerUserId => do
      let _ ← WorkspacesService.create dto ownerUserId
      pure ()
  | .members id user request => request.handle id user
  | .register dto => do
      let _ ← AuthService.register dto
      pure ()

/-- Any number of requests. One that dies takes no further step; nothing but
the requests writes. -/
def accountSystem [CaseMapping] :
    PoolSystem Accounts AccountJob AccountOp AccountOp.Result AccountError where
  exec := AccountOp.exec
  program := AccountJob.program
  spawn _ db db' := db' = db
  stop _ _ _ _ := False
  env _ _ := False

abbrev AccountPool := Pool Nat Accounts AccountJob AccountOp AccountOp.Result AccountError

abbrev AccountLabel := Pool.Label Nat AccountJob AccountOp AccountOp.Result AccountError

/-- The database, and no request yet. -/
def Accounts.idle (db : Accounts) : AccountPool := ⟨db, fun _ => none⟩

/-- The constraints hold whatever the requests do. -/
theorem reachable_constraints [CaseMapping] {db : Accounts} (hdb : db.Constraints)
    {C : AccountPool → AccountLabel → Prop} {s : AccountPool}
    (h : Pool.Reachable accountSystem (· = db) C s) : s.world.Constraints := by
  induction h with
  | start hw => exact hw ▸ hdb
  | step _ _ hstep ih =>
      cases hstep with
      | act _ hexec => exact AccountOp.exec_constraints ih hexec
      | spawn _ hspawn => exact hspawn ▸ ih
      | stop _ hstop => exact hstop.elim
      | env henv => exact henv.elim

/-! ### Scheduled requests -/

/-- The clock shows the number of the step, and ids are made of it. -/
def stepContext (i : Nat) : AccountContext where
  now := i
  uuid := "uuid-" ++ String.ofList (List.replicate i 'i')
  nestedUuid := "nested-" ++ String.ofList (List.replicate i 'i')
  rank _ := 0
  touches := true
  hash := ⟨"hash-" ++ String.ofList (List.replicate i 'i'), by simp [String.ext_iff]⟩

/-- Every call takes effect and is answered. -/
def answered (i : Nat) (op : AccountOp) (accounts : Accounts) :
    Option (Reply AccountError op.Result × Accounts) :=
  match op.run (stepContext i) accounts with
  | .ok (r, accounts') => some (.ok r, accounts')
  | .error _ => none

theorem answered_sound (i : Nat) (op : AccountOp) (accounts : Accounts)
    (reply : Reply AccountError op.Result) (accounts' : Accounts)
    (h : answered i op accounts = some (reply, accounts')) : op.exec accounts reply accounts' := by
  unfold answered at h
  split at h
  · rename_i r db' hrun
    cases h
    exact ⟨stepContext i, hrun⟩
  · cases h

theorem answered_applied {i : Nat} {op : AccountOp} {accounts accounts' : Accounts}
    {reply : Reply AccountError op.Result}
    (h : answered i op accounts = some (reply, accounts')) : reply.applied = true := by
  unfold answered at h
  split at h
  · cases h
    rfl
  · cases h

/-- A pool that a schedule computes is reachable. -/
theorem exists_reachable_of_schedule [CaseMapping] {accounts : Accounts}
    {schedule : List (Nat × Option AccountJob)} {check : AccountPool → Bool}
    (h : (Pool.play AccountJob.program answered 0 schedule accounts.idle).any check = true) :
    ∃ s, Pool.Reachable accountSystem (· = accounts) (fun _ _ => True) s ∧ check s = true := by
  obtain ⟨s, hplay, hcheck⟩ := (Option.any_eq_true _ _).mp h
  exact ⟨s, Pool.Reachable.play (fun _ _ => rfl) answered_sound
    (fun _ _ _ _ _ _ _ => trivial) hplay (fun _ _ _ _ => trivial) (.start rfl), hcheck⟩

/-- What a schedule computes is a run. -/
theorem exists_run_of_schedule [CaseMapping] {accounts : Accounts}
    {schedule : List (Nat × Option AccountJob)} {check : List AccountLabel × AccountPool → Bool}
    (h : (Pool.playLabels AccountJob.program answered 0 schedule accounts.idle).any check = true) :
    ∃ labels s, Pool.Run accountSystem (fun _ _ => True) accounts.idle labels s
      ∧ check (labels, s) = true := by
  obtain ⟨⟨labels, s⟩, hplay, hcheck⟩ := (Option.any_eq_true _ _).mp h
  exact ⟨labels, s, Pool.Run.playLabels (fun _ _ => rfl) answered_sound
    (fun _ _ _ _ _ _ _ => trivial) hplay fun _ _ _ _ => trivial, hcheck⟩

/-- The lower-case mapping of ASCII letters. -/
@[reducible] def CaseMapping.ascii : CaseMapping where
  toLowerCase s := String.ofList (s.toList.map (·.toLower))

end FlowPilot.Api
