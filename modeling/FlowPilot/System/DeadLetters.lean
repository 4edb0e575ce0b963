import FlowPilot.System.Commands
import FlowPilot.System.OutboxAgreement

/-!
# Dead letters

A command is dead-lettered when its execution has ended, with either
outcome (`deadLettered_command_ended`). The other direction - a failed
execution has a dead letter - depends on the calls between failing the
execution and publishing the dead letter: when one of them fails, the
delivery is given back, and the next one finds an ended execution and only
acknowledges. `failed_command_deadLettered` proves it for the runs in which
these calls succeed (`FailsCleanly`).
-/

namespace FlowPilot

open Prog hiding pure throw bind tryCatch

/-- A command for the execution was dead-lettered. -/
def DeadLettered (x : String) (w : World) : Prop :=
  ∃ p ∈ w.deadLetters, ∃ m : WorkflowExecutionRequestedMessage,
    p.content = .json m.value ∧ m.executionId = x

section

variable [Runtime] {env : Environment} {C : WorkerPool → WorkerLabel → Prop}
  {s s' : WorkerPool} {l : WorkerLabel} {x : String}

/-! ## Dead-lettering an ended execution -/

/-- A parsed command is dead-lettered as it is, after its execution was seen
ended. -/
theorem DeliveryOp.deadLetter_content {message : ConsumeMessage}
    {m : WorkflowExecutionRequestedMessage} {h : WorkerHistory} {p : Publication}
    (hop : DeliveryOp message h (.publish p)) (hp : p.exchange = .dlx)
    (hm : parseWorkflowExecutionRequestedMessage message = some m) :
    p.content = .json m.value ∧ TerminalSeen m.executionId h := by
  cases hop with
  | node hop =>
      rcases hop with hop | ⟨_, _, he⟩
      · cases hp.symm.trans hop
      · cases he
  | retry _ hretry _ => cases hp.symm.trans hretry
  | deadLetter hm' _ hcontent hseen =>
      obtain rfl := Option.some.inj (hm.symm.trans hm')
      exact ⟨hcontent, hseen⟩
  | rawDeadLetter hnone _ _ => cases hm.symm.trans hnone

/-- When a parsed command is dead-lettered, its execution has ended: it
succeeded or failed. -/
theorem deadLettered_command_ended (env : Environment) (s : WorkerPool)
    (h : ReachableSystem env s) (t : Nat) (message : ConsumeMessage)
    (m : WorkflowExecutionRequestedMessage) (history : WorkerHistory) (p : Publication)
    (k : Except JsError Bool → Worker Unit)
    (hth : s.threads t = some ⟨.delivery message, history, .call (.publish p) k⟩)
    (hm : parseWorkflowExecutionRequestedMessage message = some m) (hp : p.exchange = .dlx) :
    p.content = .json m.value
    ∧ ∃ row, s.world.store.executions m.executionId = some row
      ∧ (row.status = .succeeded ∨ row.status = .failed) := by
  have hr := ReachableUnder.reached h
  obtain ⟨hcontent, hseen⟩ := (hr.deliveryOp hth).deadLetter_content hp hm
  obtain ⟨row, hrow, hterminal⟩ := (hr.histories t _ hth).ended hseen
  refine ⟨hcontent, row, hrow, ?_⟩
  have hagree := ReachableUnder.agreement h m.executionId
  simp only [Agreement, Store.view, hrow] at hagree
  cases hstatus : row.status with
  | succeeded => exact Or.inl rfl
  | failed => exact Or.inr rfl
  | cancelled => exact absurd hstatus hagree.not_cancelled
  | pending =>
      rw [hstatus] at hterminal
      cases hterminal
  | running =>
      rw [hstatus] at hterminal
      cases hterminal

omit [Runtime] in
/-- The theorem at the dead letter of a command with an invalid definition. -/
theorem deadLettered_command_ended_invalid :
    ∃ (_ : Runtime) (s : WorkerPool) (t : Nat) (message : ConsumeMessage) (history : WorkerHistory)
      (p : Publication) (k : Except JsError Bool → Worker Unit),
      ReachableSystem (scriptEnvironment (newRow .null)) s
      ∧ s.threads t = some ⟨.delivery message, history, .call (.publish p) k⟩
      ∧ p.exchange = .dlx
      ∧ ∃ row, s.world.store.executions "execution" = some row
        ∧ (row.status = .succeeded ∨ row.status = .failed) := by
  let _ : Runtime := .sample false
  obtain ⟨s, t, message, history, q, hs, hth, hcheck, -⟩ :=
    exists_reachable_of_serve .null [] (fun _ => true) 15
      (P := fun message q _ => deadLettersNext q
        && (parseWorkflowExecutionRequestedMessage message).any (·.executionId = "execution"))
      (by decide +kernel)
  obtain ⟨hnext, hparse⟩ := (Bool.and_eq_true _ _).mp hcheck
  obtain ⟨p, k, rfl, hp⟩ := exists_publish_of_deadLettersNext hnext
  obtain ⟨m, hm, hid⟩ := (Option.any_eq_true _ _).mp hparse
  obtain ⟨-, hended⟩ :=
    deadLettered_command_ended (scriptEnvironment _) s hs.system t message m history p k hth hm hp
  rw [of_decide_eq_true hid] at hended
  exact ⟨_, s, t, message, history, p, k, hs.system, hth, hp, hended⟩

omit [Runtime] in
/-- A command whose execution has succeeded is dead-lettered: the completed
event finds no room at the first attempt and at the three retries, and after
the last one its execution cannot be failed any more. -/
theorem succeeded_command_deadLettered :
    ∃ (_ : Runtime) (s : WorkerPool) (t : Nat) (message : ConsumeMessage)
      (m : WorkflowExecutionRequestedMessage) (history : WorkerHistory) (p : Publication)
      (k : Except JsError Bool → Worker Unit) (row : WorkflowExecutionRow),
      ReachableSystem (scriptEnvironment (newRow defaultWorkflowDefinition)) s
      ∧ s.threads t = some ⟨.delivery message, history, .call (.publish p) k⟩
      ∧ parseWorkflowExecutionRequestedMessage message = some m ∧ p.exchange = .dlx
      ∧ s.world.store.executions m.executionId = some row ∧ row.status = .succeeded := by
  let _ : Runtime := .sample false
  obtain ⟨s, t, message, history, q, hs, hth, hcheck, -⟩ :=
    exists_reachable_of_serve defaultWorkflowDefinition [(· ≠ 29), (· ≠ 104), (· ≠ 204)]
      (· ≠ 304) 15
      (P := fun message q w => deadLettersNext q
        && (parseWorkflowExecutionRequestedMessage message).any
          fun m => w.hasStatus m.executionId .succeeded)
      (by decide +kernel)
  obtain ⟨hnext, hparse⟩ := (Bool.and_eq_true _ _).mp hcheck
  obtain ⟨p, k, rfl, hp⟩ := exists_publish_of_deadLettersNext hnext
  obtain ⟨m, hm, hsucceeded⟩ := (Option.any_eq_true _ _).mp hparse
  obtain ⟨row, hrow, hstatus⟩ := World.hasStatus_iff.mp hsucceeded
  exact ⟨_, s, t, message, m, history, p, k, row, hs.system, hth, hm, hp, hrow, hstatus⟩

/-! ## Dead-lettering a failed execution -/

/-- The step is not one of those that lose a dead letter: no transaction
that fails an execution takes effect and throws, and a delivery that has
failed its execution does not crash and none of its calls fails until its
dead letter is out. -/
def FailsCleanly (s : WorkerPool) (l : WorkerLabel) : Prop :=
  ∀ t th, s.threads t = some th →
    (∀ tr e, l = .act t ⟨.db (.transaction tr), .lost e⟩ → ¬ tr.data.Fails)
    ∧ (FailedCleanly th.history → ¬ Published .dlx th.history →
      l ≠ .stop t ∧ ∀ ev, l = .act t ev → CallSucceeded ev ∨ Published .dlx [ev])

/-- The thread has failed the execution, all its calls since then have
succeeded, and the dead letter is still to come. -/
def Failing (x : String) (th : WorkerThread) : Prop :=
  ∃ message, th.info = .delivery message ∧ CommandFor x message ∧ ¬ Settled th.history
    ∧ FailedCleanly th.history ∧ ¬ Published .dlx th.history

/-- A delivery dead-letters its command only after it saw the execution
ended. -/
theorem Reached.seen_of_published (hr : Reached s) {t : Nat} {message : ConsumeMessage}
    {m : WorkflowExecutionRequestedMessage} {h : WorkerHistory} {p : Worker Unit}
    (hth : s.threads t = some ⟨.delivery message, h, p⟩)
    (hm : parseWorkflowExecutionRequestedMessage message = some m) (hdlx : Published .dlx h) :
    TerminalSeen m.executionId h := by
  obtain ⟨ev, hmem, -, p, hop, hexchange⟩ := hdlx
  obtain ⟨first, rest, rfl⟩ := List.append_of_mem hmem
  have hdone := (along_append.mp (hr.conform t _ hth).past).2.1.1
  rw [hop] at hdone
  exact (DeliveryOp.deadLetter_content hdone hexchange hm).2.mono (List.prefix_append _ _)

omit [Runtime] in
theorem ExecutionUpdate.fails_of_apply {data : ExecutionUpdate} {row : WorkflowExecutionRow}
    (h : (data.apply row).status = .failed) : data.Fails := by
  cases data with
  | running startedAt => cases h
  | succeeded output completedAt => cases h
  | failed error completedAt => trivial

/-! ## The invariant of clean runs -/

/-- A failed execution has a dead letter, or a delivery that will send it. -/
def FailedIsDeadLettered (s : WorkerPool) : Prop :=
  ∀ x row, s.world.store.executions x = some row → row.status = .failed →
    DeadLettered x s.world ∨ ∃ t th, s.threads t = some th ∧ Failing x th

theorem deadLetters_step (hs : Pool.Step (workerSystem env) s l s') :
    s.world.deadLetters ⊆ s'.world.deadLetters := by
  rcases workerStep_cases hs with
    ⟨_, _, _, _, _, _, -, -, hexec, -⟩ | ⟨rfl, -⟩ | ⟨-, commands, hworld⟩
  · exact (Environment.exec_grows hexec).deadLetters
  · cases hs with
    | env henv =>
        cases henv with
        | createExecution _ _ _ => exact List.Subset.refl _
        | requestExecution _ _ _ _ _ => exact (World.take_grows _ _).deadLetters
        | arrive _ => exact List.Subset.refl _
        | retryExpires _ => exact List.Subset.refl _
  · rw [hworld]
    exact List.Subset.refl _

/-- A clean step of the system takes a failing delivery one call further, or
its dead letter is out. -/
theorem Failing.step (hr : Reached s) (hc : FailsCleanly s l)
    (hs : Pool.Step (workerSystem env) s l s') {t : Nat} {th : WorkerThread}
    (hth : s.threads t = some th) (hfailing : Failing x th) :
    DeadLettered x s'.world ∨ ∃ t th, s'.threads t = some th ∧ Failing x th := by
  have hclean := (hc t th hth).2
  obtain ⟨message, hinfo, hcommand, hunsettled, hfailed, hunpublished⟩ := hfailing
  obtain ⟨hstop, hcall⟩ := hclean hfailed hunpublished
  rcases hs.keeps_thread hth with hth' | ⟨hl, -⟩ | ⟨op, k, reply, hl, hprog, hexec, hth'⟩
  · exact Or.inr ⟨t, th, hth', message, hinfo, hcommand, hunsettled, hfailed, hunpublished⟩
  · exact absurd hl hstop
  · obtain ⟨info, history, prog⟩ := th
    dsimp only at hinfo hprog hunsettled hfailed hunpublished hth'
    subst hinfo hprog
    have hop := hr.deliveryOp hth
    by_cases hpublished : Published .dlx (history ++ [⟨op, reply⟩])
    · obtain ⟨happlied, p, rfl, hexchange⟩ :=
        (published_append_singleton.mp hpublished).resolve_left hunpublished
      obtain ⟨m, hm, hx⟩ := hcommand
      obtain ⟨hcontent, -⟩ := hop.deadLetter_content hexchange hm
      refine Or.inl ⟨p, ?_, m, hcontent, hx⟩
      rw [Environment.exec_publish hexec happlied]
      simp [World.take, hexchange]
    · have hunsettled' : ¬ Settled (history ++ [⟨op, reply⟩]) := by
        refine unsettled_append_singleton hunsettled fun hsettles => ?_
        cases hop with
        | node hop => exact nodeOp_not_settles hop hsettles
        | ack _ hack =>
            obtain ⟨m, hm, -⟩ := hcommand
            exact hunpublished ((hack m hm).2 hfailed)
        | nack _ hunfailed => exact hunfailed hfailed
        | _ => exact hsettles.elim
      have hsucceeded : CallSucceeded ⟨op, reply⟩ := by
        refine (hcall _ hl).resolve_right fun hdlx => hpublished ?_
        rw [published_append_singleton]
        exact Or.inr (by simpa [Published] using hdlx)
      have hfailed' := failedCleanly_append_singleton.mpr (Or.inr ⟨hfailed, hsucceeded⟩)
      exact Or.inr ⟨t, _, hth', message, rfl, hcommand, hunsettled', hfailed', hpublished⟩

/-- A delivery that fails its execution is failing it from then on. -/
theorem Moved.failing (hr : Reached s) {i : Nat} {message : ConsumeMessage} {h : WorkerHistory}
    {ev : WorkerEvent} {p p' : Worker Unit} {t : StatusTransition} {row : WorkflowExecutionRow}
    {w' : Store} (hmoved : Moved message h ev s.world.store w' t row)
    (hc : FailsCleanly s (.act i ev))
    (hth : s.threads i = some ⟨.delivery message, h, p⟩) (hfails : t.data.Fails) :
    Failing t.id ⟨.delivery message, h ++ [ev], p'⟩ := by
  obtain ⟨m, hm, ht⟩ := hmoved.command
  have hid := ht.lifecycle.1
  rcases hmoved.reply with ⟨r, rfl, hcount⟩ | ⟨e, rfl⟩
  · refine ⟨message, rfl, ⟨m, hm, hid.symm⟩, unsettled_append_singleton hmoved.unsettled id,
      failedCleanly_append_singleton.mpr (Or.inl ⟨t, r, rfl, hfails, hcount⟩), ?_⟩
    rw [published_append_singleton]
    rintro (hdlx | ⟨-, q, he, -⟩)
    · -- a dead letter before: the execution had ended already
      obtain ⟨row', hrow', hterminal⟩ :=
        (hr.histories i _ hth).ended (hr.seen_of_published hth hm hdlx)
      rw [← hid, hmoved.found] at hrow'
      obtain rfl := Option.some.inj hrow'
      cases (not_terminal_of_starts hmoved.starts).symm.trans hterminal
    · cases he
  · exact absurd hfails ((hc i _ hth).1 t e rfl)

theorem FailedIsDeadLettered.step (hr : Reached s) (hc : FailsCleanly s l)
    (hs : Pool.Step (workerSystem env) s l s') (h : FailedIsDeadLettered s) :
    FailedIsDeadLettered s' := by
  intro x row hrow hfailed
  by_cases hbefore : ∃ row, s.world.store.executions x = some row ∧ row.status = .failed
  · obtain ⟨row', hrow', hfailed'⟩ := hbefore
    rcases h x row' hrow' hfailed' with ⟨p, hp, hcontent⟩ | ⟨t, th, hth, hfailing⟩
    · exact Or.inl ⟨p, deadLetters_step hs hp, hcontent⟩
    · exact hfailing.step hr hc hs hth
  · rcases hr.rows hs with
      heq | ⟨id, new, -, hnew, -, heq⟩ | ⟨i, message, h, ev, p, p', t, old, rfl, hth, hth', hmoved⟩
    · rw [heq] at hrow
      exact absurd ⟨row, hrow, hfailed⟩ hbefore
    · rw [heq] at hrow
      by_cases hx : x = id
      · subst hx
        obtain rfl : new = row := by simpa using hrow
        cases hnew.1.symm.trans hfailed
      · rw [Function.update_of_ne hx] at hrow
        exact absurd ⟨row, hrow, hfailed⟩ hbefore
    · rw [hmoved.executions] at hrow
      by_cases hx : x = t.id
      · subst hx
        obtain rfl : t.data.apply old = row := by simpa using hrow
        have hfails := ExecutionUpdate.fails_of_apply hfailed
        exact Or.inr ⟨i, _, hth', Moved.failing hr hmoved hc hth hfails⟩
      · rw [Function.update_of_ne hx] at hrow
        exact absurd ⟨row, hrow, hfailed⟩ hbefore

/-- In every run that fails its executions cleanly, a failed execution whose
deliveries have all been settled has a dead letter; in particular once the
last delivery is acknowledged and no copy of the command is left. -/
theorem failed_command_deadLettered (env : Environment) (s : WorkerPool)
    (h : ReachableUnder env FailsCleanly s) (x : String) (row : WorkflowExecutionRow)
    (hrow : s.world.store.executions x = some row) (hfailed : row.status = .failed)
    (hsettled : ∀ t th message, s.threads t = some th → th.info = .delivery message →
      CommandFor x message → Settled th.history) :
    DeadLettered x s.world := by
  have hinv : FailedIsDeadLettered s := by
    clear hrow hsettled
    induction h with
    | start hw =>
        subst hw
        intro x row hrow
        cases hrow
    | step hreach hc hs ih => exact ih.step (ReachableUnder.reached hreach) hc hs
  rcases hinv x row hrow hfailed with hdead | ⟨t, th, hth, message, hinfo, hcommand, hunsettled, -⟩
  · exact hdead
  · exact absurd (hsettled t th message hth hinfo hcommand) hunsettled

omit [Runtime] in
/-- Steps that are neither a crash nor a failing call are clean. -/
theorem failsCleanly_of_succeeds {l : WorkerLabel} (hstop : ∀ t, l ≠ .stop t)
    (hcall : ∀ t ev, l = .act t ev → CallSucceeded ev) (s : WorkerPool) : FailsCleanly s l := by
  intro t th _
  refine ⟨fun tr e hl => ?_, fun _ _ => ⟨hstop t, fun ev hl => Or.inl (hcall t ev hl)⟩⟩
  cases hcall t _ hl

end

/-- The theorem after a delivery of a command with an invalid definition,
none of whose calls fails. -/
theorem failed_command_deadLettered_invalid :
    ∃ (_ : Runtime) (s : WorkerPool) (row : WorkflowExecutionRow),
      ReachableUnder (scriptEnvironment (newRow .null)) FailsCleanly s
      ∧ s.world.store.executions "execution" = some row ∧ row.status = .failed
      ∧ DeadLettered "execution" s.world := by
  let _ : Runtime := .sample false
  have hquiet : ∀ l : WorkerLabel, (∀ t, l ≠ .stop t) → (∀ t ev, l ≠ .act t ev) →
      ∀ s, FailsCleanly s l :=
    fun l hstop hact => failsCleanly_of_succeeds hstop fun t ev hl => absurd hl (hact t ev)
  obtain ⟨s, hs, hsettled, hfailed⟩ := exists_reachable_of_delivery .null
    (hquiet _ (by simp) (by simp)) (fun s _ _ => hquiet _ (by simp) (by simp) s)
    (fun s ev hev => failsCleanly_of_succeeds (by simp) (fun _ _ hl => by cases hl; exact hev) s)
    (P := fun w => w.hasStatus "execution" .failed) (by decide +kernel)
  obtain ⟨row, hrow, hstatus⟩ := World.hasStatus_iff.mp hfailed
  have hletter := failed_command_deadLettered _ s hs "execution" row hrow hstatus
    fun t th _ hth _ _ => hsettled t th hth
  exact ⟨_, s, row, hs, hrow, hstatus, hletter⟩

/-- A delivery fails the execution, and the failed event finds no room, so it
is given back; the next one finds the execution ended and acknowledges. No
delivery and no copy of the command is left, and no dead letter was sent. -/
theorem failed_command_not_deadLettered :
    ∃ (_ : Runtime) (s : WorkerPool) (row : WorkflowExecutionRow),
      ReachableUnder (scriptEnvironment (newRow .null)) OneAtATime s
      ∧ s.world.store.executions "execution" = some row ∧ row.status = .failed
      ∧ (∀ t th, s.threads t = some th → Settled th.history)
      ∧ s.world.commands = [] ∧ s.world.retries = [] ∧ s.world.deadLetters = [] := by
  let _ : Runtime := .sample false
  obtain ⟨s, k, message, events, q, hs, hth, hcheck, hsettled⟩ :=
    exists_reachable_of_serve .null [(· ≠ 12)] (fun _ => true) 100
      (P := fun _ q w => q.returned && w.hasStatus "execution" .failed
        && decide (w.commands = [] ∧ w.retries = [] ∧ w.deadLetters = []))
      (by decide +kernel)
  obtain ⟨hcheck, hqueues⟩ := (Bool.and_eq_true _ _).mp hcheck
  obtain ⟨hreturned, hfailed⟩ := (Bool.and_eq_true _ _).mp hcheck
  obtain rfl := eq_pure_of_returned hreturned
  obtain ⟨row, hrow, hstatus⟩ := World.hasStatus_iff.mp hfailed
  refine ⟨_, s, row, hs, hrow, hstatus, fun t th hth' => ?_, of_decide_eq_true hqueues⟩
  by_cases ht : t = k
  · subst ht
    obtain rfl := Option.some.inj (hth.symm.trans hth')
    exact settled_of_returned hs hth
  · exact hsettled t th ht hth'

end FlowPilot
