import FlowPilot.Api.AccountServices
import FlowPilot.Lib.StepOrder

/-!
# Who owns an account

Registrations for one e-mail, any number of them at once, among other
requests. `register` looks for a password and then writes: a new user is
created, which the unique e-mail guards, and an invited one is updated, which
nothing guards. So two registrations of an invited user may both return, and
the second takes the account over (`invited_user_taken_over`).

As long as no other registration writes to the user between the read and the
update of one (`Unraced`), what it found is still true (`FoundCurrent`):
then at most one registration returns and no later one touches the account
(`register_once`).
-/

namespace FlowPilot.Api

open StepOrder
open Prog hiding pure throw bind tryCatch

/-! ## What a registration does -/

/-- The writes of `register`. -/
def AccountOp.Registers : AccountOp → Bool
  | .db (.updateUser _ _ _) => true
  | .db (.createUser _ _ _) => true
  | _ => false

/-- A write of `register` that took effect. -/
def Claims (ev : AccountEvent) : Prop := ev.op.Registers = true ∧ ev.reply.applied = true

/-- The calls of `register` for an e-mail: what it writes, and what it has
read just before. -/
def RegistersFor (email : String) (h : AccountHistory) : AccountOp → Prop
  | .db (.updateUser id _ passwordHash) => passwordHash ≠ "" ∧ ∃ before found,
      found.id = id ∧ AuthService.hasPassword (some found) = false
      ∧ h = before ++ [⟨.db (.findUniqueUser email), .ok (some found)⟩]
  | .db (.createUser email' _ passwordHash) => passwordHash ≠ "" ∧ email' = email
  | .db (.findUniqueUser email') => email' = email
  | .hash _ => True
  | _ => False

/-- What it does not write it reads. -/
theorem RegistersFor.reads {email : String} {h : AccountHistory} {op : AccountOp}
    (hregisters : RegistersFor email h op) (hop : op.Registers = false) : op.Reads = true := by
  cases op with
  | hash password => rfl
  | db c =>
      cases c with
      | findUniqueUser email' => rfl
      | updateUser id displayName passwordHash => cases hop
      | createUser email' displayName passwordHash => cases hop
      | _ => exact hregisters.elim

section

variable [CaseMapping]

/-- The e-mail that a request registers. -/
def AccountJob.registers? : AccountJob → Option String
  | .register dto => some (CaseMapping.toLowerCase dto.email)
  | _ => none

/-- Only registrations write to passwords, and one that returns has
written. -/
def registration : Pool.Discipline AccountJob AccountOp AccountOp.Result AccountError where
  assumption _ _ _ := True
  obligation info h op :=
    match info.registers? with
    | some email => RegistersFor email h op
    | none => op.Registers = false
  returned info h := info.registers? ≠ none → ∃ ev ∈ h, Claims ev
  threw _ _ := True

/-! ### The other requests -/

/-- A call that writes to no password. -/
def KeepsPasswords (op : AccountOp) : Prop := op.Registers = false

omit [CaseMapping] in
theorem ofResult_issues {check : Except AccountError Unit} :
    Issues KeepsPasswords (AccountRequest.ofResult check) := by
  cases check with
  | ok a => exact issues_pure a
  | error e => exact issues_throw e

omit [CaseMapping] in
theorem rethrowConflict_issues {α : Type} (message : String) (e : AccountError) :
    Issues KeepsPasswords (AccountRequest.rethrowConflict message e : AccountRequest α) := by
  unfold AccountRequest.rethrowConflict
  split <;> exact issues_throw _

omit [CaseMapping] in
theorem canActivate_issues (requiredRoles : List WorkspaceRole) (params : RequestParams)
    (user : AuthenticatedUser) :
    Issues KeepsPasswords (WorkspaceRolesGuard.canActivate requiredRoles params user) := by
  unfold WorkspaceRolesGuard.canActivate
  split
  · exact issues_pure true
  · split
    · exact issues_throw _
    · refine issues_bind (issues_perform rfl) fun membership => ?_
      cases membership with
      | none => exact issues_throw _
      | some membership =>
          dsimp only
          split
          · exact issues_pure true
          · exact issues_throw _

omit [CaseMapping] in
theorem getActorMembership_issues (workspaceId actorUserId : String) :
    Issues KeepsPasswords (WorkspacesService.getActorMembership workspaceId actorUserId) := by
  refine issues_bind (issues_perform rfl) fun actor => ?_
  cases actor with
  | none => exact issues_throw _
  | some actor => exact issues_pure actor

omit [CaseMapping] in
theorem getMember_issues (workspaceId memberId : String) :
    Issues KeepsPasswords (WorkspacesService.getMember workspaceId memberId) := by
  refine issues_bind (issues_perform rfl) fun member => ?_
  cases member with
  | none => exact issues_throw _
  | some member => exact issues_pure member

/-- No other request writes to a password. -/
theorem program_issues {job : AccountJob} (hjob : job.registers? = none) :
    Issues KeepsPasswords job.program := by
  cases job with
  | register dto => cases hjob
  | createWorkspace dto ownerUserId =>
      refine issues_bind ?_ fun _ => issues_pure ()
      exact issues_tryCatch (issues_perform rfl) (rethrowConflict_issues _)
  | members id user request =>
      refine issues_bind (canActivate_issues _ _ _) fun _ => ?_
      cases request with
      | addMember dto =>
          refine issues_bind ?_ fun _ => issues_pure ()
          exact issues_bind (getActorMembership_issues _ _) fun _ =>
            issues_bind ofResult_issues fun _ =>
            issues_tryCatch (issues_perform rfl) (rethrowConflict_issues _)
      | updateMember memberId role =>
          refine issues_bind ?_ fun _ => issues_pure ()
          exact issues_bind (getActorMembership_issues _ _) fun _ =>
            issues_bind (getMember_issues _ _) fun _ =>
            issues_bind ofResult_issues fun _ => issues_perform rfl
      | removeMember memberId =>
          exact issues_bind (getActorMembership_issues _ _) fun _ =>
            issues_bind (getMember_issues _ _) fun _ =>
            issues_bind ofResult_issues fun _ => issues_perform rfl

/-! ### The registration -/

theorem program_keeps (job : AccountJob) : registration.Keeps job job.program [] := by
  cases hjob : job.registers? with
  | none =>
      refine wp_mono (fun _ h _ hsome => absurd hjob hsome) (fun _ _ _ => trivial)
        (wp_of_spec (program_issues hjob) fun events op _ hop => ?_)
      simp only [registration, hjob]
      exact hop
  | some email =>
      cases job with
      | createWorkspace dto ownerUserId => cases hjob
      | members id user request => cases hjob
      | register dto =>
          refine wp_bind (wp_bind (wp_perform trivial (fun passwordHash _ => ?_)
            (fun _ _ => trivial) fun _ _ => trivial))
          refine wp_tryCatch (wp_bind (wp_perform rfl (fun existingUser _ => ?_)
            (fun _ _ => AccountRequest.rethrowConflict_wp fun _ => trivial)
            fun _ _ => AccountRequest.rethrowConflict_wp fun _ => trivial))
          split
          · exact AccountRequest.rethrowConflict_wp fun _ => trivial
          · rename_i hnone
            cases existingUser with
            | none =>
                refine wp_perform ⟨passwordHash.ne_empty, rfl⟩ (fun user _ _ => ?_)
                  (fun _ _ => AccountRequest.rethrowConflict_wp fun _ => trivial)
                  fun _ _ => AccountRequest.rethrowConflict_wp fun _ => trivial
                exact ⟨_, List.mem_append_right _ (List.mem_singleton_self _), rfl, rfl⟩
            | some found =>
                refine wp_perform ⟨passwordHash.ne_empty, _, found, rfl, ?_, rfl⟩
                  (fun user _ _ => ?_)
                  (fun _ _ => AccountRequest.rethrowConflict_wp fun _ => trivial)
                  fun _ _ => AccountRequest.rethrowConflict_wp fun _ => trivial
                · exact Bool.eq_false_of_not_eq_true hnone
                · exact ⟨_, List.mem_append_right _ (List.mem_singleton_self _), rfl, rfl⟩

end

/-! ## What a call does to a user -/

section

variable {db db' : Accounts} {op : AccountOp}

/-- What a call makes of a user: it keeps its id and e-mail, and only a
registration changes a password, only the one of the user it updates. -/
structure UserAfter (op : AccountOp) (user user' : User) : Prop where
  id : user'.id = user.id
  email : user'.email = user.email
  passwordHash : op.Registers = false → user'.passwordHash = user.passwordHash
  unchanged : op.Registers = true → (∀ id displayName passwordHash,
    op = .db (.updateUser id displayName passwordHash) → user.id ≠ id) → user' = user

theorem UserAfter.refl (op : AccountOp) (user : User) : UserAfter op user user :=
  ⟨rfl, rfl, fun _ => rfl, fun _ _ => rfl⟩

theorem run_user {ctx : AccountContext} {r : op.Result} (hrun : op.run ctx db = .ok (r, db'))
    {user : User} (huser : user ∈ db.users) : ∃ user' ∈ db'.users, UserAfter op user user' := by
  have hsame : ∀ users : List User, user ∈ users → ∃ user' ∈ users, UserAfter op user user' :=
    fun users hmem => ⟨user, hmem, .refl op user⟩
  cases op with
  | hash password =>
      cases hrun
      exact hsame _ huser
  | db c =>
      cases c with
      | addMember data =>
          obtain ⟨added, db₁, hupsert, hcreate⟩ := Accounts.addMember_eq_ok hrun
          obtain ⟨-, -, -, rfl⟩ := Accounts.createMember_eq_ok hcreate
          rcases Accounts.upsertUser_eq_ok hupsert with ⟨row, -, -, rfl⟩ | hnew
          · refine ⟨_, List.mem_map_of_mem huser, ?_⟩
            split
            · exact ⟨Accounts.renameUser_id _ _, Accounts.renameUser_email _ _,
                fun _ => Accounts.renameUser_passwordHash _ _, fun h => by cases h⟩
            · exact .refl _ _
          · obtain ⟨-, -, rfl⟩ := Accounts.createUser_eq_ok hnew
            exact hsame _ (List.mem_append_left _ huser)
      | updateMember id role =>
          obtain rfl := Accounts.updateMember_eq_ok hrun
          exact hsame _ huser
      | deleteMember id =>
          obtain rfl := Accounts.deleteMember_eq_ok hrun
          exact hsame _ huser
      | createWorkspace data =>
          obtain ⟨-, created, member, -, -, hcreate⟩ := Accounts.createWorkspace_eq_ok hrun
          obtain ⟨-, -, -, rfl⟩ := Accounts.createMember_eq_ok hcreate
          exact hsame _ huser
      | updateUser id displayName passwordHash =>
          obtain ⟨⟨updated, db₁⟩, hupdate, heq⟩ := Accounts.map_eq_ok hrun
          cases heq
          obtain ⟨-, rfl⟩ := Accounts.updateUser_eq_ok hupdate
          refine ⟨_, List.mem_map_of_mem huser, ?_⟩
          split
          · rename_i hid
            exact ⟨rfl, rfl, (fun h => by cases h), fun _ h => absurd hid (h _ _ _ rfl)⟩
          · exact .refl _ _
      | createUser email displayName passwordHash =>
          obtain ⟨⟨created, db₁⟩, hcreate, heq⟩ := Accounts.map_eq_ok hrun
          cases heq
          obtain ⟨-, -, rfl⟩ := Accounts.createUser_eq_ok hcreate
          exact hsame _ (List.mem_append_left _ huser)
      | _ =>
          cases hrun
          exact hsame _ huser

theorem exec_user {reply : Reply AccountError op.Result} (hexec : op.exec db reply db')
    {user : User} (huser : user ∈ db.users) : ∃ user' ∈ db'.users, UserAfter op user user' := by
  rcases hexec.effect with rfl | ⟨ctx, r, hrun⟩
  · exact ⟨user, huser, .refl op user⟩
  · exact run_user hrun huser

/-- A call that took no effect changed nothing. -/
theorem exec_not_applied {reply : Reply AccountError op.Result} (hexec : op.exec db reply db')
    (happlied : ¬ reply.applied = true) : db' = db := by
  obtain ⟨ctx, hexec⟩ := hexec
  cases reply with
  | failed e => exact hexec.2
  | _ => exact absurd rfl happlied

/-- The update meets a user without a password. -/
def MeetsNoPassword (accounts : Accounts) : AccountOp → Prop
  | .db (.updateUser id _ _) => ∀ user ∈ accounts.users, user.id = id → ¬ user.HasPassword
  | _ => True

/-- A user with a password keeps it. -/
theorem exec_hasPassword {reply : Reply AccountError op.Result} (hexec : op.exec db reply db')
    (hmeets : reply.applied = true → MeetsNoPassword db op) {user : User} (huser : user ∈ db.users)
    (hpassword : user.HasPassword) :
    ∃ user' ∈ db'.users, user'.email = user.email ∧ user'.HasPassword
      ∧ (op.Registers = true → user' = user) := by
  by_cases happlied : reply.applied = true
  · obtain ⟨user', huser', hafter⟩ := exec_user hexec huser
    have hunchanged : op.Registers = true → user' = user := by
      refine fun hop => hafter.unchanged hop fun id displayName passwordHash heq hid => ?_
      subst heq
      exact hmeets happlied user huser hid hpassword
    refine ⟨user', huser', hafter.email, ?_, hunchanged⟩
    cases hop : op.Registers with
    | true => exact hunchanged hop ▸ hpassword
    | false =>
        obtain ⟨hash, hhash, hne⟩ := hpassword
        exact ⟨hash, (hafter.passwordHash hop).trans hhash, hne⟩
  · exact ⟨user, exec_not_applied hexec happlied ▸ huser, rfl, hpassword, fun _ => rfl⟩

/-- A registration that found a user found one who is still there. -/
def FoundStays (accounts : Accounts) : AccountEvent → Prop
  | ⟨.db (.findUniqueUser email), .ok (some found)⟩ =>
      ∃ user ∈ accounts.users, user.id = found.id ∧ user.email = email
  | _ => True

/-- What a write of `register` for an e-mail finds and leaves. -/
theorem run_registers {ctx : AccountContext} {r : op.Result} {email : String} {h : AccountHistory}
    (hconstraints : db.Constraints) (hfound : ∀ ev ∈ h, FoundStays db ev)
    (hregisters : RegistersFor email h op) (hop : op.Registers = true)
    (hmeets : MeetsNoPassword db op) (hrun : op.run ctx db = .ok (r, db')) :
    (∀ user ∈ db.users, user.email = email → ¬ user.HasPassword)
      ∧ ∃ user ∈ db'.users, user.email = email ∧ user.HasPassword := by
  cases op with
  | hash password => cases hop
  | db c =>
      cases c with
      | updateUser id displayName passwordHash =>
          obtain ⟨hne, before, found, rfl, -, rfl⟩ := hregisters
          obtain ⟨user, huser, hid, rfl⟩ := hfound _ (List.mem_append_right _ List.mem_cons_self)
          obtain ⟨⟨updated, db₁⟩, hupdate, heq⟩ := Accounts.map_eq_ok hrun
          cases heq
          obtain ⟨-, rfl⟩ := Accounts.updateUser_eq_ok hupdate
          constructor
          · intro other hother hemail
            obtain rfl := List.inj_on_of_nodup_map hconstraints.emails hother huser hemail
            exact hmeets other hother hid
          · exact ⟨_, Table.mem_update.mpr (Or.inr ⟨user, huser, hid, rfl⟩), rfl,
              passwordHash, rfl, hne⟩
      | createUser email' displayName passwordHash =>
          obtain ⟨hne, rfl⟩ := hregisters
          obtain ⟨⟨created, db₁⟩, hcreate, heq⟩ := Accounts.map_eq_ok hrun
          cases heq
          obtain ⟨hnew, rfl, rfl⟩ := Accounts.createUser_eq_ok hcreate
          constructor
          · exact fun user huser hemail => absurd hemail (hnew user huser).2
          · exact ⟨_, List.mem_append_right _ (List.mem_singleton_self _), rfl,
              passwordHash, rfl, hne⟩
      | _ => cases hop

end

/-! ## Unraced updates -/

/-- The user that a read of the thread has found. -/
def FindsUser (t : Nat) (id : String) : AccountLabel → Bool
  | .act t' ⟨.db (.findUniqueUser _), .ok (some found)⟩ => t' = t && found.id = id
  | _ => false

/-- The thread whose update of a user takes effect, and the user. -/
def updatesUser? : AccountLabel → Option (Nat × String)
  | .act t ⟨.db (.updateUser id _ _), reply⟩ => if reply.applied then some (t, id) else none
  | _ => none

/-- The step updates the user. -/
def UpdatesUser (id : String) (l : AccountLabel) : Bool := (updatesUser? l).any (·.2 = id)

/-- If the step updates a user, none has updated that user since the thread
found it. -/
def Unraced (earlier : List AccountLabel) (l : AccountLabel) : Prop :=
  ∀ update ∈ updatesUser? l,
    Fresh (FindsUser update.1 update.2 · = true) (UpdatesUser update.2 · = true) earlier

instance (earlier : List AccountLabel) (l : AccountLabel) : Decidable (Unraced earlier l) :=
  inferInstanceAs (Decidable (∀ update ∈ updatesUser? l, Fresh _ _ _))

/-! ## Runs -/

section

variable [CaseMapping] {db : Accounts} {s s' : AccountPool} {l : AccountLabel}
  {C : AccountPool → AccountLabel → Prop}

/-- The update of this step, if it takes effect, meets a user without a
password. -/
def NoTakeover (s : AccountPool) : AccountLabel → Prop
  | .act _ ⟨op, reply⟩ => reply.applied = true → MeetsNoPassword s.world op
  | _ => True

theorem reachable_registration (hreach : Pool.Reachable accountSystem (· = db) C s) :
    s.Conform registration :=
  (Pool.Reachable.invariant registration (fun _ => True) program_keeps (fun _ _ => trivial)
    (fun _ _ _ _ _ _ _ _ _ _ _ _ _ => trivial) (fun _ _ _ _ _ _ _ _ => trivial) hreach).2

omit [CaseMapping] in
theorem FoundStays.mono {accounts accounts' : Accounts} {ev : AccountEvent}
    (hkeeps : ∀ user ∈ accounts.users, ∃ user' ∈ accounts'.users,
      user'.id = user.id ∧ user'.email = user.email)
    (h : FoundStays accounts ev) : FoundStays accounts' ev := by
  unfold FoundStays at h ⊢
  split at h
  · obtain ⟨user, huser, hid, hemail⟩ := h
    obtain ⟨user', huser', hid', hemail'⟩ := hkeeps user huser
    exact ⟨user', huser', hid'.trans hid, hemail'.trans hemail⟩
  · trivial

theorem step_keeps_users (hstep : Pool.Step accountSystem s l s') :
    ∀ user ∈ s.world.users, ∃ user' ∈ s'.world.users,
      user'.id = user.id ∧ user'.email = user.email := by
  intro user huser
  cases hstep with
  | act _ hexec =>
      obtain ⟨user', huser', hafter⟩ := exec_user hexec huser
      exact ⟨user', huser', hafter.id, hafter.email⟩
  | spawn _ hspawn => exact ⟨user, hspawn ▸ huser, rfl, rfl⟩
  | stop _ hstop => exact hstop.elim
  | env henv => exact henv.elim

omit [CaseMapping] in
/-- A user that is found is there. -/
theorem exec_found {op : AccountOp} {reply : Reply AccountError op.Result} {db' : Accounts}
    (hexec : op.exec db reply db') : FoundStays db' ⟨op, reply⟩ := by
  unfold FoundStays
  split
  · rename_i email found heq
    cases heq
    obtain ⟨ctx, hrun⟩ := hexec
    obtain ⟨hfound, rfl⟩ := Prod.mk.inj (Except.ok.inj hrun)
    obtain ⟨user, huser, rfl⟩ := Option.map_eq_some_iff.mp hfound
    exact ⟨user, List.mem_of_find?_eq_some huser, rfl, by simpa using List.find?_some huser⟩
  · trivial

theorem reachable_found (hreach : Pool.Reachable accountSystem (· = db) C s) {t : Nat}
    {th : Thread AccountJob AccountOp AccountOp.Result AccountError}
    (hth : s.threads t = some th) : ∀ ev ∈ th.history, FoundStays s.world ev := by
  have halong := Pool.Reachable.along (F := fun accounts _ ev => FoundStays accounts ev)
    (fun _ _ hstep _ _ h => h.mono (step_keeps_users hstep))
    (fun _ _ _ hstep => by
      obtain ⟨_, _, _, -, hexec, -⟩ := hstep.act_cases
      exact exec_found hexec) hreach t th hth
  intro ev hev
  obtain ⟨_, _, -, hfound⟩ := halong.mem hev
  exact hfound

/-! ### What was found is current -/

/-- What a request has just found is there, with the same password unless the
user was updated since. -/
def FoundCurrent (labels : List AccountLabel) (s : AccountPool) : Prop :=
  ∀ t th before email found, s.threads t = some th →
    th.history = before ++ [⟨.db (.findUniqueUser email), .ok (some found)⟩] →
    ∃ user ∈ s.world.users, user.id = found.id
      ∧ (Fresh (FindsUser t found.id · = true) (UpdatesUser found.id · = true) labels →
        user.passwordHash = found.passwordHash)

/-- A step that does not update a user keeps the password. -/
theorem step_passwordHash (hstep : Pool.Step accountSystem s l s') {user : User}
    (huser : user ∈ s.world.users) : ∃ user' ∈ s'.world.users, user'.id = user.id
      ∧ (UpdatesUser user.id l = false → user'.passwordHash = user.passwordHash) := by
  cases hstep with
  | @act _ _ _ t _ _ op _ reply _ hexec =>
      by_cases happlied : reply.applied = true
      · obtain ⟨user', huser', hafter⟩ := exec_user hexec huser
        refine ⟨user', huser', hafter.id, fun hnone => ?_⟩
        cases hop : op.Registers with
        | false => exact hafter.passwordHash hop
        | true =>
            rw [hafter.unchanged hop]
            rintro id displayName passwordHash rfl rfl
            simp [UpdatesUser, updatesUser?, happlied] at hnone
      · exact ⟨user, exec_not_applied hexec happlied ▸ huser, rfl, fun _ => rfl⟩
  | spawn _ hspawn => exact ⟨user, hspawn ▸ huser, rfl, fun _ => rfl⟩
  | stop _ hstop => exact hstop.elim
  | env henv => exact henv.elim

theorem FoundCurrent.step {labels : List AccountLabel} (h : FoundCurrent labels s)
    (hstep : Pool.Step accountSystem s l s') : FoundCurrent (labels ++ [l]) s' := by
  intro t th before email found hth hfound
  rcases hstep.thread_cases hth with
    hold | ⟨info, -, -, rfl⟩ | ⟨info, history, op, k, reply, rfl, hold, hexec, rfl⟩
  · obtain ⟨user, huser, hid, hcurrent⟩ := h t th before email found hold hfound
    obtain ⟨user', huser', hid', hkeeps⟩ := step_passwordHash hstep huser
    refine ⟨user', huser', hid'.trans hid, fun hfresh => ?_⟩
    -- the thread has made no call, so what it found was found before
    have hnoread : ¬ FindsUser t found.id l = true := by
      intro hread
      cases l with
      | act t' ev =>
          unfold FindsUser at hread
          split at hread
          · rename_i hl
            cases hl
            obtain ⟨rfl, -⟩ := by simpa using hread
            exact hstep.threads_ne (hth.trans hold.symm)
          · cases hread
      | _ => cases hread
    obtain ⟨hfresh, hnone⟩ := (fresh_concat.mp hfresh).resolve_left hnoread
    rw [hkeeps (by rw [hid]; exact Bool.eq_false_of_not_eq_true hnone), hcurrent hfresh]
  · simp at hfound
  · obtain ⟨rfl, hlast⟩ := List.append_inj' hfound rfl
    cases hlast
    obtain ⟨ctx, hrun⟩ := hexec
    obtain ⟨hfound, hworld⟩ := Prod.mk.inj (Except.ok.inj hrun)
    obtain ⟨user, huser, rfl⟩ := Option.map_eq_some_iff.mp hfound
    exact ⟨user, hworld ▸ List.mem_of_find?_eq_some huser, rfl, fun _ => rfl⟩

theorem foundCurrent_of_run {labels : List AccountLabel}
    (hrun : Pool.Run accountSystem C db.idle labels s) : FoundCurrent labels s := by
  induction hrun with
  | refl => exact fun t th before email found hth => by cases hth
  | step _ _ hstep ih => exact ih.step hstep

omit [CaseMapping] in
/-- A user with the password that was found has none where none was found. -/
theorem not_hasPassword_of_found {user : User} {found : Credentials}
    (hnone : AuthService.hasPassword (some found) = false)
    (hsame : user.passwordHash = found.passwordHash) : ¬ user.HasPassword := by
  rintro ⟨hash, hhash, hne⟩
  obtain ⟨id, passwordHash⟩ := found
  obtain rfl : passwordHash = some hash := hsame.symm.trans hhash
  simp [AuthService.hasPassword, hne] at hnone

/-- An unraced update meets the user as it was found, without a
password. -/
theorem noTakeover_of_unraced {labels : List AccountLabel} (hdb : db.Constraints)
    (hrun : Pool.Run accountSystem C db.idle labels s) (hstep : Pool.Step accountSystem s l s')
    (hunraced : Unraced labels l) : NoTakeover s l := by
  have hreach : Pool.Reachable accountSystem (· = db) C s := hrun.reachable (.start rfl)
  cases l with
  | act t ev =>
      obtain ⟨op, reply⟩ := ev
      intro happlied
      cases op with
      | hash password => trivial
      | db c =>
          cases c with
          | updateUser id displayName passwordHash =>
              intro user huser hid
              obtain ⟨info, history, k, hth, -, -⟩ := hstep.act_cases
              have hobligation := (reachable_registration hreach t _ hth).rest.1
              cases hinfo : info.registers? with
              | none =>
                  simp only [registration, hinfo] at hobligation
                  cases hobligation
              | some email =>
                  simp only [registration, hinfo] at hobligation
                  obtain ⟨-, before, found, rfl, hnone, rfl⟩ := hobligation
                  obtain ⟨user', huser', hid', hcurrent⟩ :=
                    foundCurrent_of_run hrun t _ before email found hth rfl
                  obtain rfl := List.inj_on_of_nodup_map
                    (reachable_constraints hdb hreach).user_ids huser huser' (hid.trans hid'.symm)
                  exact not_hasPassword_of_found hnone (hcurrent (hunraced _ (if_pos happlied)))
          | _ => trivial
  | _ => trivial

/-- A run of unraced updates takes no account over. -/
theorem run_noTakeover {labels : List AccountLabel} (hdb : db.Constraints)
    (hrun : Pool.Run accountSystem C db.idle labels s)
    (hunraced : Throughout Unraced labels) :
    Pool.Run accountSystem NoTakeover db.idle labels s := by
  induction hrun with
  | refl => exact .refl
  | step hrun _ hstep ih =>
      obtain ⟨hearlier, hlast⟩ := throughout_concat.mp hunraced
      exact .step (ih hearlier) (noTakeover_of_unraced hdb hrun hstep hlast) hstep

/-! ### One claim for an e-mail -/

/-- A registration for the e-mail has written. -/
def HasClaimed (s : AccountPool) (t : Nat) (email : String) : Prop :=
  ∃ th, s.threads t = some th ∧ th.info.registers? = some email ∧ ∃ ev ∈ th.history, Claims ev

/-- The users of the e-mails that were claimed have a password, and each was
claimed by one request. -/
structure OneClaim (s : AccountPool) : Prop where
  hasPassword : ∀ t email, HasClaimed s t email →
    ∃ user ∈ s.world.users, user.email = email ∧ user.HasPassword
  unique : ∀ t t' email, HasClaimed s t email → HasClaimed s t' email → t = t'

/-- A claim is an old one or the one of the step, whose call kept to what a
registration may write. -/
theorem HasClaimed.cases (hstep : Pool.Step accountSystem s l s') (hconf : s.Conform registration)
    {t : Nat} {email : String} (h : HasClaimed s' t email) :
    HasClaimed s t email ∨ ∃ op reply h, l = .act t ⟨op, reply⟩ ∧ Claims ⟨op, reply⟩
      ∧ RegistersFor email h op ∧ (∃ info k, s.threads t = some ⟨info, h, .call op k⟩)
      ∧ op.exec s.world reply s'.world := by
  obtain ⟨th, hth, hinfo, ev, hev, hclaims⟩ := h
  rcases hstep.thread_cases hth with
    hold | ⟨info, -, -, rfl⟩ | ⟨info, h, op, k, reply, rfl, hold, hexec, rfl⟩
  · exact Or.inl ⟨th, hold, hinfo, ev, hev, hclaims⟩
  · cases hev
  · rcases List.mem_append.mp hev with hev | hev
    · exact Or.inl ⟨_, hold, hinfo, ev, hev, hclaims⟩
    · obtain rfl := List.mem_singleton.mp hev
      have hobligation := (hconf t _ hold).rest.1
      have hinfo' : info.registers? = some email := hinfo
      simp only [registration, hinfo'] at hobligation
      exact Or.inr ⟨op, reply, h, rfl, hclaims, hobligation, ⟨info, k, hold⟩, hexec⟩

omit [CaseMapping] in
theorem exec_applied {op : AccountOp} {reply : Reply AccountError op.Result} {db' : Accounts}
    (hexec : op.exec db reply db') (happlied : reply.applied = true) :
    ∃ ctx r, op.run ctx db = .ok (r, db') := by
  obtain ⟨ctx, hexec⟩ := hexec
  cases reply with
  | ok r => exact ⟨ctx, r, hexec⟩
  | lost e => exact ⟨ctx, hexec.2⟩
  | failed e => cases happlied

theorem OneClaim.step (hdb : db.Constraints) (hreach : Pool.Reachable accountSystem (· = db) C s)
    (hinv : OneClaim s) (hC : NoTakeover s l) (hstep : Pool.Step accountSystem s l s') :
    OneClaim s' := by
  have hconf := reachable_registration hreach
  -- a new claim finds no password for its e-mail, and leaves one
  have hnew : ∀ {t email op reply h}, l = .act t ⟨op, reply⟩ → Claims ⟨op, reply⟩ →
      RegistersFor email h op → (∃ info k, s.threads t = some ⟨info, h, .call op k⟩) →
      op.exec s.world reply s'.world →
      (∀ user ∈ s.world.users, user.email = email → ¬ user.HasPassword)
        ∧ ∃ user ∈ s'.world.users, user.email = email ∧ user.HasPassword := by
    intro t email op reply h hl hclaims hregisters hth hexec
    obtain ⟨info, k, hth⟩ := hth
    obtain ⟨ctx, r, hrun⟩ := exec_applied hexec hclaims.2
    subst hl
    exact run_registers (reachable_constraints hdb hreach) (reachable_found hreach hth) hregisters
      hclaims.1 (hC hclaims.2) hrun
  constructor
  · intro t email hclaimed
    rcases hclaimed.cases hstep hconf with
      hold | ⟨op, reply, h, hl, hclaims, hregisters, hth, hexec⟩
    · obtain ⟨user, huser, hemail, hpassword⟩ := hinv.hasPassword t email hold
      cases hstep with
      | act _ hexec =>
          obtain ⟨user', huser', hemail', hpassword', -⟩ :=
            exec_hasPassword hexec hC huser hpassword
          exact ⟨user', huser', hemail'.trans hemail, hpassword'⟩
      | spawn _ hspawn => exact ⟨user, hspawn ▸ huser, hemail, hpassword⟩
      | stop _ hstop => exact hstop.elim
      | env henv => exact henv.elim
    · exact (hnew hl hclaims hregisters hth hexec).2
  · intro t t' email hclaimed hclaimed'
    rcases hclaimed.cases hstep hconf with
      hold | ⟨op, reply, h, hl, hclaims, hregisters, hth, hexec⟩ <;>
    rcases hclaimed'.cases hstep hconf with
      hold' | ⟨op', reply', h', hl', hclaims', hregisters', hth', hexec'⟩
    · exact hinv.unique t t' email hold hold'
    · obtain ⟨user, huser, hemail, hpassword⟩ := hinv.hasPassword t email hold
      exact absurd hpassword ((hnew hl' hclaims' hregisters' hth' hexec').1 user huser hemail)
    · obtain ⟨user, huser, hemail, hpassword⟩ := hinv.hasPassword t' email hold'
      exact absurd hpassword ((hnew hl hclaims hregisters hth hexec).1 user huser hemail)
    · cases hl.symm.trans hl'
      rfl

theorem reachable_oneClaim (hdb : db.Constraints)
    (hreach : Pool.Reachable accountSystem (· = db) NoTakeover s) : OneClaim s := by
  induction hreach with
  | start _ =>
      exact ⟨fun _ _ ⟨_, hth, _⟩ => by (cases hth), fun _ _ _ ⟨_, hth, _⟩ => by (cases hth)⟩
  | step hreach hC hstep ih => exact ih.step hdb hreach hC hstep

/-- **At most one registration.** From any database, in every run in which no
other registration writes to a user between the read and the update of one: of
the registrations for one e-mail at most one returns, and no step of a
registration changes a user who has a password. -/
theorem register_once {labels : List AccountLabel} (hdb : db.Constraints)
    (hrun : Pool.Run accountSystem (fun _ _ => True) db.idle labels s)
    (hunraced : Throughout Unraced labels) :
    (∀ t t' info info' h h' email, s.threads t = some ⟨info, h, .pure ()⟩ →
        s.threads t' = some ⟨info', h', .pure ()⟩ → info.registers? = some email →
        info'.registers? = some email → t = t')
      ∧ ∀ t ev s', Unraced labels (.act t ev) → Pool.Step accountSystem s (.act t ev) s' →
        (∃ dto h p, s.threads t = some ⟨.register dto, h, p⟩) →
        ∀ user ∈ s.world.users, user.HasPassword → user ∈ s'.world.users := by
  have hreach : Pool.Reachable accountSystem (· = db) NoTakeover s :=
    (run_noTakeover hdb hrun hunraced).reachable (.start rfl)
  have hconf := reachable_registration hreach
  constructor
  · intro t t' info info' h h' email hth hth' hinfo hinfo'
    have hclaimed : ∀ {t info h}, s.threads t = some ⟨info, h, .pure ()⟩ →
        info.registers? = some email → HasClaimed s t email := by
      intro t info h hth hinfo
      exact ⟨_, hth, hinfo, (hconf t _ hth).rest (by simp [hinfo])⟩
    exact (reachable_oneClaim hdb hreach).unique t t' email (hclaimed hth hinfo)
      (hclaimed hth' hinfo')
  · rintro t ⟨op, reply⟩ s' hlast hstep ⟨dto, h, p, hth⟩ user huser hpassword
    have hC : NoTakeover s (.act t ⟨op, reply⟩) := noTakeover_of_unraced hdb hrun hstep hlast
    obtain ⟨info, h', k, hth', hexec, -⟩ := hstep.act_cases
    obtain ⟨rfl, rfl, rfl⟩ := by simpa using hth.symm.trans hth'
    have hregisters : RegistersFor (CaseMapping.toLowerCase dto.email) h op :=
      (hconf t _ hth').rest.1
    cases hop : op.Registers with
    | true =>
        obtain ⟨user', huser', -, -, hsame⟩ := exec_hasPassword hexec hC huser hpassword
        exact hsame hop ▸ huser'
    | false =>
        have hreads : op.Reads = true := hregisters.reads hop
        exact AccountOp.exec_reads hreads hexec ▸ huser

end

/-! ### One new user, and one who was invited -/

def adaRegisters : AccountJob := .register ⟨"ada@acme.test", "correct horse", "Ada"⟩

def malloryRegisters : AccountJob := .register ⟨"Ada@acme.test", "battery staple", "Mallory"⟩

/-- A request for the e-mail has returned. -/
def HasReturned [CaseMapping] (s : AccountPool) (t : Nat) : Prop :=
  ∃ info h, s.threads t = some ⟨info, h, .pure ()⟩ ∧ info.registers? = some "ada@acme.test"

/-- The same, computed. -/
def hasReturned [CaseMapping] (s : AccountPool) (t : Nat) : Bool :=
  match s.threads t with
  | some ⟨info, _, q⟩ => q.returned && info.registers? == some "ada@acme.test"
  | none => false

theorem hasReturned_sound [CaseMapping] {s : AccountPool} {t : Nat}
    (h : hasReturned s t = true) : HasReturned s t := by
  unfold hasReturned at h
  split at h
  · rename_i info hist q hth
    simp only [Bool.and_eq_true, beq_iff_eq] at h
    exact ⟨info, hist, eq_pure_of_returned h.1 ▸ hth, h.2⟩
  · cases h

/-- A user who was added to a workspace and has no password yet. -/
def invitedUser : Accounts where
  workspaces := []
  users := [⟨"ada", "ada@acme.test", "ada@acme.test", none, 0, 0⟩]
  workspaceMembers := []

/-- Both requests look for a password before either writes one. -/
def takeoverSchedule : List (Nat × Option AccountJob) :=
  [(0, some adaRegisters), (1, some malloryRegisters), (0, none), (0, none), (1, none), (1, none),
    (0, none), (1, none)]

/-- The second request looks for a password once the first has written one. -/
def orderlySchedule : List (Nat × Option AccountJob) :=
  [(0, some adaRegisters), (1, some malloryRegisters), (0, none), (1, none), (0, none), (0, none),
    (1, none)]

theorem register_once_invited :
    let _ : CaseMapping := .ascii
    ∃ labels s, Pool.Run accountSystem (fun _ _ => True) invitedUser.idle labels s
      ∧ Throughout Unraced labels ∧ HasReturned s 0
      ∧ ∀ t info h, s.threads t = some ⟨info, h, .pure ()⟩ →
        info.registers? = some "ada@acme.test" → 0 = t := by
  intro _
  have hplay : (Pool.playLabels AccountJob.program answered 0 orderlySchedule invitedUser.idle).any
      (fun (labels, s) => hasReturned s 0 && decide (Throughout Unraced labels)) = true := by
    decide
  obtain ⟨labels, s, hrun, hcheck⟩ := exists_run_of_schedule hplay
  obtain ⟨hreturned, hunraced⟩ := (Bool.and_eq_true _ _).mp hcheck
  obtain ⟨info, h, hth, hinfo⟩ := hasReturned_sound hreturned
  have hunraced := of_decide_eq_true hunraced
  exact ⟨labels, s, hrun, hunraced, ⟨info, h, hth, hinfo⟩, fun t info' h' hth' hinfo' =>
    (register_once (by constructor <;> decide) hrun hunraced).1 0 t _ _ _ _ _ hth hth' hinfo
      hinfo'⟩

/-- Two registrations of an invited user both return. -/
theorem invited_user_taken_over :
    let _ : CaseMapping := .ascii
    invitedUser.Constraints
      ∧ ∃ s, Pool.Reachable accountSystem (· = invitedUser) (fun _ _ => True) s
        ∧ HasReturned s 0 ∧ HasReturned s 1
        ∧ (s.world.findUniqueUser "ada@acme.test").map (·.displayName) = some "Mallory" := by
  intro _
  have hplay : (Pool.play AccountJob.program answered 0 takeoverSchedule invitedUser.idle).any
      (fun s => hasReturned s 0 && hasReturned s 1
        && (s.world.findUniqueUser "ada@acme.test").map (·.displayName) == some "Mallory")
      = true := by
    decide
  obtain ⟨s, hreach, hcheck⟩ := exists_reachable_of_schedule hplay
  simp only [Bool.and_eq_true, beq_iff_eq] at hcheck
  exact ⟨by constructor <;> decide, s, hreach, hasReturned_sound hcheck.1.1,
    hasReturned_sound hcheck.1.2, hcheck.2⟩

end FlowPilot.Api
