import FlowPilot.Api.AccountServices

/-!
# Who controls admins

The rule of the member management: only an owner makes, changes or removes
an admin. A request checks it in three reads - the guard's, the actor's and
the target's - and then writes by id alone, so that roles may change between
any two of them.

`ownersControlAdmins_iff` says when the rule holds along a run: exactly if no
actor whom the guard admitted was demoted below admin before the service read
him and then writes to an admin, and no target became an admin after the
service read it for an admin actor. The policy catches everything else.
-/

namespace FlowPilot.Api

open Prog hiding pure throw bind tryCatch

/-! ## What a request has read -/

/-- The role that the guard read. -/
def guardRead : AccountEvent → Option WorkspaceRole
  | ⟨.db (.findMembership _ _), .ok (some membership)⟩ => some membership.role
  | _ => none

/-- The membership that `getActorMembership` read. -/
def actorRead : AccountEvent → Option MembershipPolicySubject
  | ⟨.db (.findUniqueMember _ _), .ok (some actor)⟩ => some actor
  | _ => none

/-- The membership that `getMember` read. -/
def memberRead : AccountEvent → Option MembershipPolicySubject
  | ⟨.db (.findFirstMember _ _), .ok (some member)⟩ => some member
  | _ => none

def guardRole (h : AccountHistory) : Option WorkspaceRole := h.findSome? guardRead

def actorOf (h : AccountHistory) : Option MembershipPolicySubject := h.findSome? actorRead

def targetOf (h : AccountHistory) : Option MembershipPolicySubject := h.findSome? memberRead

/-- The role of the actor when the service read it. -/
def actorRole (h : AccountHistory) : Option WorkspaceRole := (actorOf h).map (·.role)

/-! ## The rule -/

/-- The call makes somebody an admin. -/
def GrantsAdmin : AccountOp → Prop
  | .db (.addMember data) => data.role = .admin
  | .db (.updateMember _ role) => role = .admin
  | _ => False

/-- The call writes to the membership of an admin. -/
def TargetsAdmin (accounts : Accounts) : AccountOp → Prop
  | .db (.updateMember id _) => ∃ row ∈ accounts.workspaceMembers, row.id = id ∧ row.role = .admin
  | .db (.deleteMember id) => ∃ row ∈ accounts.workspaceMembers, row.id = id ∧ row.role = .admin
  | _ => False

def ConcernsAdmin (accounts : Accounts) (op : AccountOp) : Prop :=
  GrantsAdmin op ∨ TargetsAdmin accounts op

/-- The rule at one step: a write that concerns an admin is made by a request
whose actor was an owner when the service read it. -/
def OwnersControlAdmins (s : AccountPool) : AccountLabel → Prop
  | .act t ⟨op, reply⟩ => reply.applied = true → ConcernsAdmin s.world op →
      ∀ info h k, s.threads t = some ⟨info, h, .call op k⟩ → actorRole h = some .owner
  | _ => True

/-- The actor was no admin any more when the service read it. -/
def Demoted (h : AccountHistory) : Prop :=
  (∃ role, guardRole h = some role ∧ role ∈ [WorkspaceRole.owner, .admin])
    ∧ ∃ role, actorRole h = some role ∧ role ∉ [WorkspaceRole.owner, .admin]

/-- The target was no admin when the service read it. -/
def ReadAsOther (h : AccountHistory) : Prop :=
  ∃ member, targetOf h = some member ∧ member.role ≠ .admin

/-- At this step no role has changed in a way that the policy does not see. -/
def NoRoleRace (s : AccountPool) : AccountLabel → Prop
  | .act t ⟨op, reply⟩ => reply.applied = true → ∀ info h k,
      s.threads t = some ⟨info, h, .call op k⟩ →
        (Demoted h → ¬ ConcernsAdmin s.world op)
          ∧ (actorRole h = some .admin → ReadAsOther h → ¬ TargetsAdmin s.world op)
  | _ => True

/-! ## What the policy allows -/

namespace WorkspacesService

theorem assertCanAssignRole_eq_ok {actorRole nextRole : WorkspaceRole} :
    assertCanAssignRole actorRole nextRole = .ok ()
      ↔ nextRole ≠ .owner ∧ ¬ (actorRole = .admin ∧ nextRole = .admin) := by
  cases actorRole <;> cases nextRole <;> decide

theorem assertCanUpdateMember_eq_ok {actor member : MembershipPolicySubject}
    {nextRole : WorkspaceRole} :
    assertCanUpdateMember actor member nextRole = .ok ()
      ↔ (member.role ≠ .owner ∧ nextRole ≠ .owner) ∧ actor.id ≠ member.id
        ∧ (actor.role = .admin → member.role ≠ .admin ∧ nextRole ≠ .admin) := by
  simp only [assertCanUpdateMember, bind, Except.bind, throw, throwThe, MonadExceptOf.throw, pure,
    Except.pure]
  grind

theorem assertCanRemoveMember_eq_ok {actor member : MembershipPolicySubject} :
    assertCanRemoveMember actor member = .ok ()
      ↔ member.role ≠ .owner ∧ actor.id ≠ member.id
        ∧ (actor.role = .admin → member.role ≠ .admin) := by
  simp only [assertCanRemoveMember, bind, Except.bind, throw, throwThe, MonadExceptOf.throw, pure,
    Except.pure]
  grind

end WorkspacesService

/-- The request has passed the guard. -/
def Admitted (h : AccountHistory) : Prop :=
  ∃ role, guardRole h = some role ∧ role ∈ [WorkspaceRole.owner, .admin]

/-- A write comes after the guard and after the policy, asked about what was
read. -/
def Permitted (h : AccountHistory) : AccountOp → Prop
  | .db (.addMember data) => Admitted h ∧ ∃ actor, actorOf h = some actor
      ∧ WorkspacesService.assertCanAssignRole actor.role data.role = .ok ()
  | .db (.updateMember _ role) => Admitted h ∧ ∃ actor member, actorOf h = some actor
      ∧ targetOf h = some member
      ∧ WorkspacesService.assertCanUpdateMember actor member role = .ok ()
  | .db (.deleteMember _) => Admitted h ∧ ∃ actor member, actorOf h = some actor
      ∧ targetOf h = some member
      ∧ WorkspacesService.assertCanRemoveMember actor member = .ok ()
  | _ => True

/-! ### Every request asks before it writes -/

/-- The guard has read a membership. -/
def guardEvent (id userId : String) (membership : WorkspaceMembership) : AccountEvent :=
  ⟨.db (.findMembership id userId), .ok (some membership)⟩

/-- `getActorMembership` has. -/
def actorEvent (id userId : String) (actor : MembershipPolicySubject) : AccountEvent :=
  ⟨.db (.findUniqueMember id userId), .ok (some actor)⟩

/-- `getMember` has. -/
def memberEvent (id memberId : String) (member : MembershipPolicySubject) : AccountEvent :=
  ⟨.db (.findFirstMember memberId id), .ok (some member)⟩

/-- What has to be shown of a property of calls, for it to hold of every call
of every request: a write to a member comes after the reads of its request,
and the policy has been asked about them. -/
structure Granted (P : AccountHistory → AccountOp → Prop) : Prop where
  reads : ∀ h op, op.Reads = true → P h op
  createWorkspace : ∀ h data, P h (.db (.createWorkspace data))
  updateUser : ∀ h id displayName passwordHash, P h (.db (.updateUser id displayName passwordHash))
  createUser : ∀ h email displayName passwordHash,
    P h (.db (.createUser email displayName passwordHash))
  addMember : ∀ id userId membership actor data,
    membership.role ∈ [WorkspaceRole.owner, .admin] →
    WorkspacesService.assertCanAssignRole actor.role data.role = .ok () →
    P [guardEvent id userId membership, actorEvent id userId actor] (.db (.addMember data))
  updateMember : ∀ id userId membership actor memberId member role,
    membership.role ∈ [WorkspaceRole.owner, .admin] →
    WorkspacesService.assertCanUpdateMember actor member role = .ok () →
    P [guardEvent id userId membership, actorEvent id userId actor, memberEvent id memberId member]
      (.db (.updateMember memberId role))
  deleteMember : ∀ id userId membership actor memberId member,
    membership.role ∈ [WorkspaceRole.owner, .admin] →
    WorkspacesService.assertCanRemoveMember actor member = .ok () →
    P [guardEvent id userId membership, actorEvent id userId actor, memberEvent id memberId member]
      (.db (.deleteMember memberId))

section

variable {P : AccountHistory → AccountOp → Prop} {h : AccountHistory}

/-- The guard returns only if it has read a role that is required. -/
theorem canActivate_wp (hP : Granted P) (id : String) (user : AuthenticatedUser) :
    wp (fun _ _ => True) P
      (WorkspaceRolesGuard.canActivate [.owner, .admin] ⟨some id, none⟩ user) []
      (fun _ h => ∃ membership : WorkspaceMembership,
        membership.role ∈ [WorkspaceRole.owner, .admin] ∧ h = [guardEvent id user.sub membership])
      (fun _ _ => True) := by
  unfold WorkspaceRolesGuard.canActivate
  rw [if_neg (by decide)]
  split
  · trivial
  · refine wp_bind (wp_perform (hP.reads _ _ rfl) (fun reply _ => ?_) (fun _ _ => trivial)
      fun _ _ => trivial)
    cases reply with
    | none => trivial
    | some membership =>
        by_cases hrole : membership.role ∈ [WorkspaceRole.owner, .admin]
        · simp only [hrole, if_true]
          exact ⟨membership, hrole, rfl⟩
        · simp only [hrole, if_false]
          trivial

theorem getActorMembership_wp (hP : Granted P) (workspaceId actorUserId : String) :
    wp (fun _ _ => True) P (WorkspacesService.getActorMembership workspaceId actorUserId) h
      (fun actor h' => h' = h ++ [actorEvent workspaceId actorUserId actor])
      (fun _ _ => True) := by
  refine wp_bind (wp_perform (hP.reads _ _ rfl) (fun reply _ => ?_) (fun _ _ => trivial)
    fun _ _ => trivial)
  cases reply with
  | none => trivial
  | some actor => exact rfl

theorem getMember_wp (hP : Granted P) (workspaceId memberId : String) :
    wp (fun _ _ => True) P (WorkspacesService.getMember workspaceId memberId) h
      (fun member h' => h' = h ++ [memberEvent workspaceId memberId member])
      (fun _ _ => True) := by
  refine wp_bind (wp_perform (hP.reads _ _ rfl) (fun reply _ => ?_) (fun _ _ => trivial)
    fun _ _ => trivial)
  cases reply with
  | none => trivial
  | some member => exact rfl

/-- The result of a check. -/
theorem ofResult_wp {check : Except AccountError Unit} :
    wp (fun _ _ => True) P (AccountRequest.ofResult check) h
      (fun _ h' => h' = h ∧ check = .ok ()) (fun _ _ => True) := by
  cases check with
  | ok a => exact ⟨rfl, rfl⟩
  | error e => trivial

/-- A write to a member, after a check of what was read of the actor and of
the member. -/
theorem managed_safe (hP : Granted P) {id : String} {user : AuthenticatedUser} {memberId : String}
    {membership : WorkspaceMembership} {op : AccountOp}
    {check : MembershipPolicySubject → MembershipPolicySubject → Except AccountError Unit}
    (hop : ∀ actor member, check actor member = .ok () →
      P [guardEvent id user.sub membership, actorEvent id user.sub actor,
        memberEvent id memberId member] op) :
    SafeFrom P [guardEvent id user.sub membership] (do
      let actor ← WorkspacesService.getActorMembership id user.sub
      let member ← WorkspacesService.getMember id memberId
      AccountRequest.ofResult (check actor member)
      perform op) := by
  refine wp_bind (wp_mono (fun actor h hactor => ?_) (fun _ _ h => h)
    (getActorMembership_wp hP id user.sub))
  subst hactor
  refine wp_bind (wp_mono (fun member h hmember => ?_) (fun _ _ h => h)
    (getMember_wp hP id memberId))
  subst hmember
  refine wp_bind (wp_mono (fun _ h hcheck => ?_) (fun _ _ h => h) ofResult_wp)
  obtain ⟨rfl, hcheck⟩ := hcheck
  refine wp_perform ?_ (fun _ _ => trivial) (fun _ _ => trivial) fun _ _ => trivial
  exact hop actor member hcheck

variable [CaseMapping]

theorem handle_safe (hP : Granted P) (id : String) (user : AuthenticatedUser)
    (request : MemberRequest) : SafeFrom P [] (request.handle id user) := by
  refine wp_bind (wp_mono (fun _ h hguard => ?_) (fun _ _ h => h) (canActivate_wp hP id user))
  obtain ⟨membership, hrole, rfl⟩ := hguard
  cases request with
  | addMember dto =>
      refine wp_bind (wp_bind (wp_mono (fun actor h hactor => ?_) (fun _ _ h => h)
        (getActorMembership_wp hP id user.sub)))
      subst hactor
      refine wp_bind (wp_mono (fun _ h hcheck => ?_) (fun _ _ h => h) ofResult_wp)
      obtain ⟨rfl, hcheck⟩ := hcheck
      refine wp_tryCatch (wp_perform ?_ (fun _ _ => trivial) (fun e _ => ?_) fun e _ => ?_)
      · exact hP.addMember id user.sub membership actor _ hrole hcheck
      · exact AccountRequest.rethrowConflict_wp fun _ => trivial
      · exact AccountRequest.rethrowConflict_wp fun _ => trivial
  | updateMember memberId role =>
      have hupdate : SafeFrom P _
          (WorkspacesService.updateMemberRole id memberId user.sub role) :=
        managed_safe hP fun actor member hcheck =>
          hP.updateMember id user.sub membership actor memberId member role hrole hcheck
      exact wp_bind (wp_mono (fun _ _ _ => trivial) (fun _ _ h => h) hupdate)
  | removeMember memberId =>
      exact managed_safe hP fun actor member hcheck =>
        hP.deleteMember id user.sub membership actor memberId member hrole hcheck

/-- Every call of a request has a property that is granted. -/
theorem program_safe (hP : Granted P) (job : AccountJob) : SafeFrom P [] job.program := by
  have hread : ∀ {op : AccountOp}, op.Reads = true → Safe P (perform op) :=
    fun hop => safe_perform fun h => hP.reads h _ hop
  have hrethrow : ∀ {α : Type} (message : String) (e : AccountError),
      Safe P (AccountRequest.rethrowConflict message e : AccountRequest α) :=
    fun message e _ => AccountRequest.rethrowConflict_wp fun _ => trivial
  cases job with
  | createWorkspace dto ownerUserId =>
      have hcreate : Safe P (WorkspacesService.create dto ownerUserId) :=
        .tryCatch (safe_perform fun h => hP.createWorkspace h _) (hrethrow _)
      exact hcreate.bind (fun _ => safe_pure ()) []
  | members id user request => exact handle_safe hP id user request
  | register dto =>
      have hregister : Safe P (AuthService.register dto) := by
        refine .bind (hread rfl) fun passwordHash =>
          .tryCatch (.bind (hread rfl) fun existingUser => ?_) (hrethrow _)
        split
        · exact safe_throw _
        · split
          · exact safe_perform fun h => hP.updateUser h _ _ _
          · exact safe_perform fun h => hP.createUser h _ _ _
      exact hregister.bind (fun _ => safe_pure ()) []

end

theorem permitted_granted : Granted Permitted where
  reads h op hop := by
    cases op with
    | hash password => trivial
    | db c =>
        cases c with
        | addMember data => cases hop
        | updateMember id role => cases hop
        | deleteMember id => cases hop
        | _ => trivial
  createWorkspace _ _ := trivial
  updateUser _ _ _ _ := trivial
  createUser _ _ _ _ := trivial
  addMember _ _ membership actor _ hrole hcheck :=
    ⟨⟨membership.role, rfl, hrole⟩, actor, rfl, hcheck⟩
  updateMember _ _ membership actor _ member _ hrole hcheck :=
    ⟨⟨membership.role, rfl, hrole⟩, actor, member, rfl, rfl, hcheck⟩
  deleteMember _ _ membership actor _ member hrole hcheck :=
    ⟨⟨membership.role, rfl, hrole⟩, actor, member, rfl, rfl, hcheck⟩

section

variable [CaseMapping]

/-! ## When the rule holds -/

variable {db : Accounts} {C : AccountPool → AccountLabel → Prop} {s : AccountPool}

omit [CaseMapping] in
/-- A write to an admin that the policy let pass: the actor was admitted, and
if it was an admin then nobody is made one, and the target was read as
something else. -/
theorem Permitted.actor {h : AccountHistory} {op : AccountOp} {accounts : Accounts}
    (hpermitted : Permitted h op) (hconcerns : ConcernsAdmin accounts op) :
    Admitted h ∧ ∃ role, actorRole h = some role ∧ (role = .admin →
      ¬ GrantsAdmin op ∧ (TargetsAdmin accounts op → ReadAsOther h)) := by
  have hnone : ¬ ConcernsAdmin accounts op → False := fun hnot => hnot hconcerns
  cases op with
  | hash password => exact (hnone (by simp [ConcernsAdmin, GrantsAdmin, TargetsAdmin])).elim
  | db c =>
      cases c with
      | addMember data =>
          obtain ⟨hadmitted, actor, hactor, hpolicy⟩ := hpermitted
          refine ⟨hadmitted, actor.role, by simp [actorRole, hactor], fun hadmin =>
            ⟨?_, False.elim⟩⟩
          exact fun hgrants =>
            (WorkspacesService.assertCanAssignRole_eq_ok.mp hpolicy).2 ⟨hadmin, hgrants⟩
      | updateMember id role =>
          obtain ⟨hadmitted, actor, member, hactor, htarget, hpolicy⟩ := hpermitted
          refine ⟨hadmitted, actor.role, by simp [actorRole, hactor], fun hadmin => ?_⟩
          obtain ⟨hother, hgrants⟩ :=
            (WorkspacesService.assertCanUpdateMember_eq_ok.mp hpolicy).2.2 hadmin
          exact ⟨hgrants, fun _ => ⟨member, htarget, hother⟩⟩
      | deleteMember id =>
          obtain ⟨hadmitted, actor, member, hactor, htarget, hpolicy⟩ := hpermitted
          refine ⟨hadmitted, actor.role, by simp [actorRole, hactor], fun hadmin => ⟨nofun, ?_⟩⟩
          have hother := (WorkspacesService.assertCanRemoveMember_eq_ok.mp hpolicy).2.2 hadmin
          exact fun _ => ⟨member, htarget, hother⟩
      | _ => exact (hnone (by simp [ConcernsAdmin, GrantsAdmin, TargetsAdmin])).elim

/-- Where the request has asked the policy, the rule and the condition are
one. -/
theorem ownersControlAdmins_step_iff
    (hreach : Pool.Reachable accountSystem (· = db) C s) (l : AccountLabel) :
    OwnersControlAdmins s l ↔ NoRoleRace s l := by
  have hobeys := Pool.Reachable.obeys (P := fun _ => Permitted)
    (program_safe permitted_granted) hreach
  cases l with
  | act t ev =>
      constructor
      · intro hrule happlied info h k hth
        refine ⟨fun hdemoted hconcerns => ?_, fun hadmin _ htarget => ?_⟩
        · obtain ⟨role, hrole, hbelow⟩ := hdemoted.2
          obtain rfl := Option.some.inj (hrole.symm.trans (hrule happlied hconcerns info h k hth))
          simp at hbelow
        · have howner := hrule happlied (Or.inr htarget) info h k hth
          exact absurd (hadmin.symm.trans howner) (by decide)
      · intro hrace happlied hconcerns info h k hth
        obtain ⟨hdemoted, htarget⟩ := hrace happlied info h k hth
        obtain ⟨hadmitted, role, hrole, hpolicy⟩ := (hobeys.next hth).actor hconcerns
        have hadmin : role ∈ [WorkspaceRole.owner, .admin] := by
          by_contra hbelow
          exact hdemoted ⟨hadmitted, role, hrole, hbelow⟩ hconcerns
        rcases List.mem_pair.mp hadmin with rfl | rfl
        · exact hrole
        · -- an admin: the policy excludes the grant, the condition the target
          obtain ⟨hgrants, hother⟩ := hpolicy rfl
          rcases hconcerns with hgrant | hadminTarget
          · exact absurd hgrant hgrants
          · exact absurd hadminTarget (htarget hrole (hother hadminTarget))
  | _ => exact Iff.rfl

/-- **Only owners control admins, but for races.** A run keeps the rule at
every step if and only if at every step no role has changed in a way that
the policy does not see. -/
theorem ownersControlAdmins_iff (db : Accounts) (labels : List AccountLabel) (s : AccountPool) :
    Pool.Run accountSystem OwnersControlAdmins db.idle labels s
      ↔ Pool.Run accountSystem NoRoleRace db.idle labels s := by
  have hstart : ∀ C, Pool.Reachable accountSystem (· = db) C db.idle := fun C => .start rfl
  constructor
  · exact Pool.Run.mono (hstart _) fun s l hreach =>
      (ownersControlAdmins_step_iff hreach l).mp
  · exact Pool.Run.mono (hstart _) fun s l hreach =>
      (ownersControlAdmins_step_iff hreach l).mpr

end

/-! ### A demotion between two reads -/

/-- A workspace with an owner and an admin. -/
def demotionStart : Accounts where
  workspaces := [⟨"workspace", "Acme", "acme", 0, 0⟩]
  users := [⟨"owner", "owner@acme.test", "Owner", some "hash", 0, 0⟩,
    ⟨"admin", "admin@acme.test", "Admin", some "hash", 0, 0⟩]
  workspaceMembers := [⟨"member-1", "workspace", "owner", .owner, 0, 0⟩,
    ⟨"member-2", "workspace", "admin", .admin, 0, 0⟩]

/-- The admin adds an admin; the guard reads his role. Then the owner's
request to make him a member runs, and after it the service reads his role. -/
def demotionSchedule : List (Nat × Option AccountJob) :=
  [(0, some (.members "workspace" ⟨"admin", none⟩
      (.addMember ⟨"friend@acme.test", none, some .admin⟩))),
    (0, none),
    (1, some (.members "workspace" ⟨"owner", none⟩ (.updateMember "member-2" .member))),
    (1, none), (1, none), (1, none), (1, none),
    (0, none)]

/-- The first request is about to make an admin, for a mere member. -/
def aboutToMakeAdmin (s : AccountPool) : Bool :=
  match s.threads 0 with
  | some ⟨_, h, .call (.db (.addMember data)) _⟩ =>
      decide (actorRole h = some .member) && decide (data.role = .admin)
        && (answered 8 (.db (.addMember data)) s.world).isSome
  | _ => false

theorem demotionSchedule_check :
    let _ : CaseMapping := .ascii
    (Pool.play AccountJob.program answered 0 demotionSchedule demotionStart.idle).any
      aboutToMakeAdmin = true := by
  decide

/-- A request whose actor was a member when the service read it makes an
admin. -/
theorem demoted_actor_makes_admin :
    let _ : CaseMapping := .ascii
    ∃ (s : AccountPool) (t : Nat) (ev : AccountEvent) (s' : AccountPool),
      Pool.Reachable accountSystem (· = demotionStart) (fun _ _ => True) s
        ∧ Pool.Step accountSystem s (.act t ev) s' ∧ ¬ OwnersControlAdmins s (.act t ev) := by
  intro _
  obtain ⟨s, hreach, hcheck⟩ := exists_reachable_of_schedule demotionSchedule_check
  unfold aboutToMakeAdmin at hcheck
  split at hcheck
  · rename_i info h data k hth
    simp only [Bool.and_eq_true, decide_eq_true_eq] at hcheck
    obtain ⟨⟨hactor, hrole⟩, hanswer⟩ := hcheck
    obtain ⟨⟨reply, accounts'⟩, hanswer⟩ := Option.isSome_iff_exists.mp hanswer
    refine ⟨s, 0, ⟨_, reply⟩, _, hreach, .act hth (answered_sound _ _ _ _ _ hanswer), ?_⟩
    intro hrule
    have hmember := hrule (answered_applied hanswer) (Or.inl hrole) info h k hth
    exact absurd (hactor.symm.trans hmember) (by decide)
  · cases hcheck

end FlowPilot.Api
