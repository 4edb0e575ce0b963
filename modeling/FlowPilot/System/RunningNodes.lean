import FlowPilot.System.NodeRows
import FlowPilot.System.Scripts

/-!
# Nodes left running

A row that is running is attended by the delivery that set it running, in
the runs in which deliveries close what they open (`ClosesRows`). A settled
delivery attends nothing, so no row is left running
(`no_node_left_running`).

In other runs rows are left running: the started event of a node is published
between the upsert of its row and the `try` block, and when that fails at
every attempt the execution is failed with the row as it was
(`node_left_running`).
-/

namespace FlowPilot

open Prog hiding pure throw bind tryCatch

/-- The step closes what it opens: while the row of a node is running, its
delivery does not crash, and its calls are those of `ClosesNodes`. -/
def ClosesRows (s : WorkerPool) (l : WorkerLabel) : Prop :=
  ∀ t th, s.threads t = some th →
    ((progress th.history).running = true → l ≠ .stop t)
    ∧ ∀ ev, l = .act t ev → ClosesNodes th.history ev

section

variable [Runtime] {env : Environment} {s s' : WorkerPool} {l : WorkerLabel}

/-- The thread is a delivery for the execution of the row, it has set the
row running and did not update it since. -/
structure Attends (th : WorkerThread) (row : WorkflowNodeExecution) : Prop where
  delivery : ∃ message, th.info = .delivery message ∧ CommandFor row.executionId message
  running : (progress th.history).running = true
  current : ∃ nodeId, (progress th.history).current = some (nodeId, row.id)

/-- Every running row is attended. -/
def Attended (s : WorkerPool) : Prop :=
  ∀ row ∈ s.world.store.nodeExecutions, row.status = .running →
    ∃ t th, s.threads t = some th ∧ Attends th row

/-- Every call of such a run has met its condition. -/
theorem ReachableUnder.closes (h : ReachableUnder env ClosesRows s) :
    ∀ t th, s.threads t = some th → Along ClosesNodes [] th.history :=
  Pool.Reachable.along (F := fun _ => ClosesNodes) (fun _ _ _ _ _ h => h)
    (fun _ hc hth _ => (hc _ _ hth).2 _ rfl) h

/-- A delivery goes on attending a row that its call does not touch. -/
theorem Attends.call (hr : ReachableUnder env ClosesRows s) (hc : ClosesRows s l) {t : Nat}
    {info : Job} {history : WorkerHistory} {op : WorkerOp}
    {k : Except JsError op.Result → Worker Unit} {reply : Reply JsError op.Result}
    {p : Worker Unit} {row : WorkflowNodeExecution}
    (hth : s.threads t = some ⟨info, history, .call op k⟩) (hl : l = .act t ⟨op, reply⟩)
    (ha : Attends ⟨info, history, .call op k⟩ row) (htouch : ¬ Touches ⟨op, reply⟩ row) :
    Attends ⟨info, history ++ [⟨op, reply⟩], p⟩ row := by
  obtain ⟨hdelivery, hrunning, nodeId, hcurrent⟩ := ha
  have hstays : (progress history).step ⟨op, reply⟩ = progress history →
      Attends ⟨info, history ++ [⟨op, reply⟩], p⟩ row := by
    intro heq
    rw [← progress_append_singleton] at heq
    exact ⟨hdelivery, by rw [heq]; exact hrunning, nodeId, by rw [heq]; exact hcurrent⟩
  rcases (progress history).step_cases ⟨op, reply⟩ with ⟨heq, -⟩
    | ⟨m, node, input, startedAt, r, hev, -⟩ | ⟨m, node, input, startedAt, e, hev, -⟩
    | ⟨id, data, reply', hev, happlied, -⟩
  · exact hstays heq
  · -- the next row is set running only when no row is
    cases hev
    obtain ⟨-, -, -, -, hnothing⟩ := ReachableUnder.upserts hr hth
    cases hrunning.symm.trans (hnothing (hr.closes t _ hth))
  · cases hev
    cases (hc t _ hth).2 _ hl rfl
  · cases hev
    obtain ⟨-, -, -, -, -, nodeId', hcurrent'⟩ := ReachableUnder.updates hr hth
    cases hcurrent.symm.trans hcurrent'
    exact absurd ⟨happlied, rfl⟩ htouch

/-- A row that is still running is still attended. -/
theorem Attends.step (hr : ReachableUnder env ClosesRows s) (hc : ClosesRows s l)
    (hs : Pool.Step (workerSystem env) s l s') {t : Nat} {th : WorkerThread}
    {row : WorkflowNodeExecution} (hth : s.threads t = some th) (ha : Attends th row)
    (htouch : ∀ ev, l = .act t ev → ¬ Touches ev row) :
    ∃ t th, s'.threads t = some th ∧ Attends th row := by
  rcases hs.keeps_thread hth with hth' | ⟨hl, -⟩ | ⟨op, k, reply, hl, hprog, -, hth'⟩
  · exact ⟨t, th, hth', ha⟩
  · exact absurd hl ((hc t th hth).1 ha.running)
  · obtain ⟨info, history, prog⟩ := th
    dsimp only at hprog hth'
    subst hprog
    exact ⟨t, _, hth', ha.call hr hc hth hl (htouch _ hl)⟩

theorem Attended.step (hr : ReachableUnder env ClosesRows s) (hc : ClosesRows s l)
    (hs : Pool.Step (workerSystem env) s l s') (h : Attended s) : Attended s' := by
  intro row hrow hrunning
  rcases nodeEffect_of_step hs with ⟨t, op, reply, rfl, heffect⟩ | ⟨hl, heq⟩
  · rcases heffect.origin hr.uniqueNodes hrow with ⟨hold, htouch⟩
      | ⟨m, node, input, startedAt, reply', hev, happlied, hanswer, hof, -⟩
      | ⟨id, data, reply', -, -, old, -, -, rfl⟩
    · obtain ⟨t', th, hth, ha⟩ := h row hold hrunning
      exact ha.step hr hc hs hth fun ev hl => by cases hl; exact htouch
    · cases hev
      obtain ⟨info, history, k, hth, -, hthreads⟩ := hs.act_cases
      obtain ⟨message, rfl, hm, -⟩ := ReachableUnder.upserts hr hth
      cases reply' with
      | ok r =>
          obtain rfl := hanswer r rfl
          refine ⟨t, _, by rw [hthreads, Function.update_self],
            ⟨message, rfl, m, hm, hof.1.symm⟩, ?_, node.id, ?_⟩
          · rw [progress_append_singleton]
            rfl
          · rw [progress_append_singleton]
            rfl
      | lost e => cases (hc t _ hth).2 _ rfl rfl
      | failed e => cases happlied
    · rw [data.apply_status] at hrunning
      split at hrunning
      · cases hrunning
      · cases hrunning
  · obtain ⟨t, th, hth, ha⟩ := h row (heq ▸ hrow) hrunning
    exact ha.step hr hc hs hth fun ev hl' => absurd hl' (hl t ev)

/-- A settled delivery attends nothing. -/
theorem Attends.unsettled (hr : ReachableUnder env ClosesRows s) {t : Nat} {th : WorkerThread}
    {row : WorkflowNodeExecution} (hth : s.threads t = some th) (ha : Attends th row) :
    ¬ Settled th.history := by
  intro hsettled
  obtain ⟨message, hinfo, -⟩ := ha.delivery
  obtain ⟨info, history, p⟩ := th
  dsimp only at hinfo hsettled
  subst hinfo
  have hpast := (ReachableUnder.nodeRowOp hr t _ hth).past
  have hrows : Along (fun h ev => NodeRowOp message h ev.op) [] history :=
    along_mono (fun _ _ h => h.1) hpast
  cases (NodeRowOp.settled hrows (hr.closes t _ hth) hsettled).symm.trans ha.running

/-- In every run in which deliveries close what they open, an execution whose
deliveries have all been settled has no row of a node that is running; in
particular when it has succeeded or failed and no copy of its command is
left. -/
theorem no_node_left_running (env : Environment) (s : WorkerPool)
    (h : ReachableUnder env ClosesRows s) (x : String)
    (hsettled : ∀ t th message, s.threads t = some th → th.info = .delivery message →
      CommandFor x message → Settled th.history) :
    ∀ row ∈ s.world.store.nodeExecutions, row.executionId = x → row.status ≠ .running := by
  have hinv : Attended s := by
    clear hsettled
    induction h with
    | start hw =>
        subst hw
        exact fun row hrow => by cases hrow
    | step hreach hc hs ih => exact ih.step hreach hc hs
  rintro row hrow rfl hrunning
  obtain ⟨t, th, hth, ha⟩ := hinv row hrow hrunning
  obtain ⟨message, hinfo, hcommand⟩ := ha.delivery
  exact ha.unsettled h hth (hsettled t th message hth hinfo hcommand)

omit [Runtime] in
/-- Steps that are neither a crash nor a failing call close what they
open. -/
theorem closesRows_of_succeeds {l : WorkerLabel} (hstop : ∀ t, l ≠ .stop t)
    (hcall : ∀ t ev, l = .act t ev → CallSucceeded ev) (s : WorkerPool) : ClosesRows s l :=
  fun t _ _ => ⟨fun _ => hstop t, fun ev hl => closesNodes_of_succeeded (hcall t ev hl)⟩

end

/-- The theorem after a delivery none of whose calls fails. -/
theorem no_node_left_running_succeeded :
    ∃ (_ : Runtime) (s : WorkerPool) (row : WorkflowExecutionRow),
      ReachableUnder (scriptEnvironment (newRow defaultWorkflowDefinition)) ClosesRows s
      ∧ s.world.store.executions "execution" = some row ∧ row.status = .succeeded
      ∧ s.world.store.nodeExecutions ≠ []
      ∧ ∀ row ∈ s.world.store.nodeExecutions, row.executionId = "execution" →
        row.status ≠ .running := by
  let _ : Runtime := .sample false
  have hquiet : ∀ l : WorkerLabel, (∀ t, l ≠ .stop t) → (∀ t ev, l ≠ .act t ev) →
      ∀ s, ClosesRows s l :=
    fun l hstop hact => closesRows_of_succeeds hstop fun t ev hl => absurd hl (hact t ev)
  obtain ⟨s, hs, hsettled, hcheck⟩ := exists_reachable_of_delivery defaultWorkflowDefinition
    (hquiet _ (by simp) (by simp)) (fun s _ _ => hquiet _ (by simp) (by simp) s)
    (fun s ev hev => closesRows_of_succeeds (by simp) (fun _ _ hl => by cases hl; exact hev) s)
    (P := fun w => w.hasStatus "execution" .succeeded && !w.store.nodeExecutions.isEmpty)
    (by decide +kernel)
  obtain ⟨hsucceeded, hnodes⟩ := (Bool.and_eq_true _ _).mp hcheck
  obtain ⟨row, hrow, hstatus⟩ := World.hasStatus_iff.mp hsucceeded
  have hclosed := no_node_left_running _ _ hs "execution" fun t th _ hth _ _ => hsettled t th hth
  exact ⟨_, s, row, hs, hrow, hstatus, by simpa using hnodes, hclosed⟩

/-- The started event of a node finds no room at the first attempt and at the
three retries. The execution is failed, every delivery is settled and no copy
of the command is left, and the row of the node is running. -/
theorem node_left_running :
    ∃ (_ : Runtime) (s : WorkerPool) (row : WorkflowExecutionRow),
      ReachableUnder (scriptEnvironment (newRow defaultWorkflowDefinition)) OneAtATime s
      ∧ s.world.store.executions "execution" = some row ∧ row.status = .failed
      ∧ (∀ t th, s.threads t = some th → Settled th.history)
      ∧ s.world.commands = [] ∧ s.world.retries = []
      ∧ ∃ row ∈ s.world.store.nodeExecutions, row.executionId = "execution"
        ∧ row.status = .running := by
  let _ : Runtime := .sample false
  obtain ⟨s, k, message, events, q, hs, hth, hcheck, hsettled⟩ :=
    exists_reachable_of_serve defaultWorkflowDefinition [(· ≠ 13), (· ≠ 109), (· ≠ 209)]
      (· ≠ 309) 100
      (P := fun _ q w => q.returned && w.hasStatus "execution" .failed
        && decide (w.commands = [] ∧ w.retries = [])
        && w.store.nodeExecutions.any fun row =>
          row.executionId = "execution" ∧ row.status = .running)
      (by decide +kernel)
  obtain ⟨hcheck, hrunning⟩ := (Bool.and_eq_true _ _).mp hcheck
  obtain ⟨hcheck, hqueues⟩ := (Bool.and_eq_true _ _).mp hcheck
  obtain ⟨hreturned, hfailed⟩ := (Bool.and_eq_true _ _).mp hcheck
  obtain rfl := eq_pure_of_returned hreturned
  obtain ⟨row, hrow, hstatus⟩ := World.hasStatus_iff.mp hfailed
  obtain ⟨hcommands, hretries⟩ := of_decide_eq_true hqueues
  refine ⟨_, s, row, hs, hrow, hstatus, fun t th hth' => ?_, hcommands, hretries, ?_⟩
  · by_cases ht : t = k
    · subst ht
      obtain rfl := Option.some.inj (hth.symm.trans hth')
      exact settled_of_returned hs hth
    · exact hsettled t th ht hth'
  · simpa using hrunning

end FlowPilot
