import FlowPilot.System.NodeRows
import FlowPilot.System.StateMachine
import FlowPilot.System.Turns
import FlowPilot.Worker.FoundFirst

/-!
# An execution and its nodes

The row of an execution moves under a guard on its status; the rows of its
nodes are written without one. So the two agree as long as the deliveries
that read an execution before it has ended do not overlap (`NoOverlap`): a
delivery that runs the nodes has found its execution in a status that is not
terminal, and nobody else could have ended it since, because an execution is
moved by a delivery that has read it. `node_rows_agree` is what follows: a
succeeded execution has one row for each node of its definition, which has
succeeded, and the nodes of an ended execution are left alone. A delivery
that reads the row after the end may have started at any time.

When two deliveries overlap, one can complete the execution while the other
is still in the loop (`node_rows_disagree`).
-/

namespace FlowPilot

open Prog hiding pure throw bind tryCatch

open WorkflowNodeExecution (SameRow)

/-! ## Deliveries of one execution -/

/-- The thread is a delivery for the execution that has not ended. -/
structure Active [Runtime] (x : String) (th : WorkerThread) : Prop where
  delivery : ∃ message, th.info = .delivery message ∧ CommandFor x message
  running : th.prog.ended? = none

/-- The thread is such a delivery, and has read the row of the execution. -/
structure Engaged [Runtime] (x : String) (th : WorkerThread) : Prop extends Active x th where
  read : HasRead x th.history

/-- As long as an execution has not ended, a delivery reads its row only when
the others that have read it are over. -/
def NoOverlap [Runtime] (s : WorkerPool) (l : WorkerLabel) : Prop :=
  ∀ t ev x, l = .act t ev → ev.op = .db (.findExecution x) → ¬ Ended x s.world.store →
    ∀ t' th, t' ≠ t → s.threads t' = some th → ¬ Engaged x th

/-- The thread is such a delivery, and it runs the nodes. -/
structure RunsNodesOf [Runtime] (x : String) (th : WorkerThread) : Prop where
  active : Active x th
  runs : ∃ message m, th.info = .delivery message
    ∧ parseWorkflowExecutionRequestedMessage message = some m ∧ m.executionId = x
    ∧ RunsNodes m th.history

section

variable [Runtime] {env : Environment} {C : WorkerPool → WorkerLabel → Prop} {s s' : WorkerPool}
  {l : WorkerLabel} {x : String}

theorem RunsNodesOf.engaged {th : WorkerThread} (h : RunsNodesOf x th) : Engaged x th := by
  obtain ⟨hactive, -, m, -, -, rfl, -, row, hsaw, -⟩ := h
  exact ⟨hactive, _, hsaw, rfl⟩

theorem active_of_call {message : ConsumeMessage} {m : WorkflowExecutionRequestedMessage}
    {history : WorkerHistory} {op : WorkerOp} {k : Except JsError op.Result → Worker Unit}
    (hm : parseWorkflowExecutionRequestedMessage message = some m) :
    Active m.executionId ⟨.delivery message, history, .call op k⟩ :=
  ⟨⟨message, rfl, m, hm, rfl⟩, rfl⟩

/-- An execution that has not ended has one engaged delivery at most. -/
def Exclusive (s : WorkerPool) : Prop :=
  ∀ x t t' th th', ¬ Ended x s.world.store → s.threads t = some th → s.threads t' = some th' →
    Engaged x th → Engaged x th' → t = t'

/-- An engaged delivery was engaged before the step, or reads the row with
it. -/
theorem Engaged.before (hs : Pool.Step (workerSystem env) s l s') {t : Nat} {th : WorkerThread}
    (hth : s'.threads t = some th) (he : Engaged x th) :
    (∃ th₀, s.threads t = some th₀ ∧ Engaged x th₀)
    ∨ ∃ ev, l = .act t ev ∧ ev.op = .db (.findExecution x) := by
  obtain ⟨⟨hdelivery, hrunning⟩, ev, hev, hop⟩ := he
  rcases hs.thread_cases hth with
    hold | ⟨info, rfl, -, rfl⟩ | ⟨info, h, op, k, reply, rfl, hold, -, rfl⟩
  · exact Or.inl ⟨th, hold, ⟨hdelivery, hrunning⟩, ev, hev, hop⟩
  · cases hev
  · rcases List.mem_append.mp hev with hev | hev
    · exact Or.inl ⟨_, hold, ⟨hdelivery, rfl⟩, ev, hev, hop⟩
    · exact Or.inr ⟨ev, by rw [List.mem_singleton.mp hev], hop⟩

theorem Exclusive.step (h : Exclusive s) (hr : Reached s) (hc : NoOverlap s l)
    (hs : Pool.Step (workerSystem env) s l s') : Exclusive s' := by
  intro x t t' th th' hended hth hth' he he'
  have hbefore : ¬ Ended x s.world.store := fun h => hended (h.mono (hr.advances hs))
  by_contra hne
  rcases he.before hs hth with ⟨th₀, hth₀, he₀⟩ | ⟨ev, hl, hop⟩
  · rcases he'.before hs hth' with ⟨th₁, hth₁, he₁⟩ | ⟨ev, hl, hop⟩
    · exact hne (h x t t' th₀ th₁ hbefore hth₀ hth₁ he₀ he₁)
    · exact hc t' ev x hl hop hbefore t th₀ hne hth₀ he₀
  · rcases he'.before hs hth' with ⟨th₁, hth₁, he₁⟩ | ⟨ev', hl', -⟩
    · exact hc t ev x hl hop hbefore t' th₁ (Ne.symm hne) hth₁ he₁
    · cases hl.symm.trans hl'
      exact hne rfl

/-- A thread that a step leaves as it was does not make the call of the
step. -/
theorem not_act_of_kept (hs : Pool.Step (workerSystem env) s l s') {t : Nat} {th : WorkerThread}
    (hth : s.threads t = some th) (hth' : s'.threads t = some th) (ev : WorkerEvent) :
    l ≠ .act t ev := by
  rintro rfl
  obtain ⟨op, reply⟩ := ev
  obtain ⟨info, h, k, hcall, -, hthreads⟩ := hs.act_cases
  obtain rfl := Option.some.inj (hth.symm.trans hcall)
  rw [hthreads, Function.update_self] at hth'
  simpa using congrArg (fun th => th.history.length) (Option.some.inj hth')

/-! ## Who writes the rows of an execution -/

/-- Only a delivery that runs the nodes of the execution writes their
rows. -/
theorem ReachableUnder.frame (h : ReachableUnder env C s)
    (hs : Pool.Step (workerSystem env) s l s')
    (hno : ∀ t ev th, l = .act t ev → s.threads t = some th → ¬ RunsNodesOf x th) :
    s'.world.store.nodeExecutions.filter (·.executionId = x)
      = s.world.store.nodeExecutions.filter (·.executionId = x) := by
  rcases nodeEffect_of_step hs with ⟨t, op, reply, rfl, heffect⟩ | ⟨-, heq⟩
  · obtain ⟨info, history, k, hth, -, -⟩ := hs.act_cases
    refine heffect.frame ?_ ?_
    · rintro m node input startedAt rfl rfl
      obtain ⟨message, rfl, hm, hruns, -⟩ := h.upserts hth
      exact hno t _ _ rfl hth ⟨active_of_call hm, message, m, rfl, hm, rfl, hruns⟩
    · rintro id data rfl r hr rfl rfl
      obtain ⟨message, m, rfl, hm, hruns, nodeId, -, row, hrow, hid, hof⟩ := h.updatesRow hth
      obtain rfl := h.uniqueNodes.eq_of_id hrow hr hid
      have hx : m.executionId = row.executionId := hof.1.symm
      exact hno t _ _ rfl hth ⟨hx ▸ active_of_call hm, message, m, rfl, hm, hx, hruns⟩
  · rw [heq]

/-- While the engaged delivery of an execution makes no call, nobody writes its
rows. -/
theorem ReachableUnder.frame_of_engaged (h : ReachableUnder env C s) (hexclusive : Exclusive s)
    (hs : Pool.Step (workerSystem env) s l s') (hended : ¬ Ended x s.world.store) {t : Nat}
    {th : WorkerThread} (hth : s.threads t = some th) (he : Engaged x th)
    (hl : ∀ ev, l ≠ .act t ev) :
    s'.world.store.nodeExecutions.filter (·.executionId = x)
      = s.world.store.nodeExecutions.filter (·.executionId = x) := by
  refine h.frame hs fun t' ev th' hl' hth' hruns => ?_
  obtain rfl := hexclusive x t t' th th' hended hth hth' he hruns.engaged
  exact hl ev hl'

/-- A fact about the engaged delivery of an execution and the rows of the
execution. -/
def EngagedKnows (K : String → WorkerHistory → List WorkflowNodeExecution → Prop)
    (s : WorkerPool) : Prop :=
  ∀ t th x, ¬ Ended x s.world.store → s.threads t = some th → Engaged x th →
    K x th.history s.world.store.nodeExecutions

/-- Such a fact holds on, if it is about no other rows, is true of a delivery
that has not read the execution, and survives the calls of the delivery. -/
theorem EngagedKnows.step {K : String → WorkerHistory → List WorkflowNodeExecution → Prop}
    (hframe : ∀ {x history rows rows'}, K x history rows →
      rows'.filter (·.executionId = x) = rows.filter (·.executionId = x) → K x history rows')
    (hunread : ∀ {x t info history p}, s.threads t = some ⟨info, history, p⟩ →
      Active x ⟨info, history, p⟩ → ¬ HasRead x history →
      K x history s.world.store.nodeExecutions)
    (hcall : ∀ {x t info history op k reply rows},
      s.threads t = some ⟨info, history, .call op k⟩ →
      NodeEffect s.world.store.nodeExecutions ⟨op, reply⟩ rows →
      Active x ⟨info, history, .call op k⟩ → K x history s.world.store.nodeExecutions →
      K x (history ++ [⟨op, reply⟩]) rows)
    (hknows : EngagedKnows K s) (h : ReachableUnder env C s) (hexclusive : Exclusive s)
    (hs : Pool.Step (workerSystem env) s l s') : EngagedKnows K s' := by
  intro t th x hended hth hengaged
  have hbefore : ¬ Ended x s.world.store := fun he => hended (he.mono (h.reached.advances hs))
  rcases hs.thread_cases hth with
    hold | ⟨info, -, -, rfl⟩ | ⟨info, history, op, k, reply, rfl, hold, hexec, rfl⟩
  · exact hframe (hknows t th x hbefore hold hengaged)
      (h.frame_of_engaged hexclusive hs hbefore hold hengaged (not_act_of_kept hs hold hth))
  · obtain ⟨ev, hev, -⟩ := hengaged.read
    cases hev
  · have hactive : Active x ⟨info, history, .call op k⟩ := ⟨hengaged.delivery, rfl⟩
    have hexec : env.exec op s.world reply s'.world := hexec
    refine hcall hold (exec_nodeEffect hexec) hactive ?_
    by_cases hread : HasRead x history
    · exact hknows t _ x hbefore hold ⟨hactive, hread⟩
    · exact hunread hold hactive hread

omit [Runtime] in
/-- A row of the execution is among those that its frame keeps. -/
theorem mem_of_frame {rows rows' : List WorkflowNodeExecution} {row : WorkflowNodeExecution}
    (hrow : row ∈ rows) (hx : row.executionId = x)
    (heq : rows'.filter (·.executionId = x) = rows.filter (·.executionId = x)) : row ∈ rows' := by
  have hmem : row ∈ rows.filter (·.executionId = x) :=
    List.mem_filter.mpr ⟨hrow, decide_eq_true hx⟩
  rw [← heq] at hmem
  exact List.mem_of_mem_filter hmem

/-! ## The execution of a delivery that runs the nodes -/

/-- The execution exists and has not ended. -/
def Live (x : String) (s : Store) : Prop :=
  ∃ row, s.executions x = some row ∧ isTerminalExecutionStatus row.status = false

omit [Runtime] in
theorem Live.not_ended {s : Store} (h : Live x s) : ¬ Ended x s := by
  rintro ⟨row', hrow', hterminal⟩
  obtain ⟨row, hrow, hlive⟩ := h
  cases hrow.symm.trans hrow'
  cases hterminal.symm.trans hlive

/-- A delivery runs the nodes of executions that have not ended. -/
def RunsLive (s : WorkerPool) : Prop :=
  ∀ t th x, s.threads t = some th → RunsNodesOf x th → Live x s.world.store

/-- A thread that moves an execution has read it. -/
def Job.ReadsFirst : Job → WorkerHistory → WorkerOp → Prop
  | .delivery message => FlowPilot.ReadsFirst message
  | .outboxDispatcher => fun _ _ => True

theorem Job.program_readsFirst : ∀ job : Job, SafeFrom job.ReadsFirst [] job.program
  | .delivery message => handleDelivery_readsFirst message
  | .outboxDispatcher => safeFrom_of_stable (K := fun _ => True) (fun _ _ => id)
      (fun _ _ _ => trivial) trivial

theorem ReachableUnder.readsFirst (h : ReachableUnder env C s) :
    s.Conform (.ofSafe Job.ReadsFirst) :=
  Pool.Reachable.obeys Job.program_readsFirst h

/-- A delivery moves an execution it has read. -/
theorem ReachableUnder.read_of_transaction (h : ReachableUnder env C s) {t : Nat}
    {message : ConsumeMessage} {m : WorkflowExecutionRequestedMessage} {history : WorkerHistory}
    {tr : StatusTransition} {k : Except JsError TransitionResult → Worker Unit}
    (hth : s.threads t = some ⟨.delivery message, history, .call (.db (.transaction tr)) k⟩)
    (hm : parseWorkflowExecutionRequestedMessage message = some m) :
    HasRead m.executionId history :=
  h.readsFirst.next hth m hm fun _ hev =>
    have ⟨_, _, _, hcall⟩ := (h.reached.conform t _ hth).past.mem hev
    hcall.2.infallible

/-- An execution that has not ended is live after a step that does not end
it. -/
theorem Live.step (hlive : Live x s.world.store) (h : ReachableUnder env C s)
    (hs : Pool.Step (workerSystem env) s l s')
    (hends : ∀ i ev th tr, l = .act i ev → s.threads i = some th → ev.op = .db (.transaction tr) →
      Engaged tr.id th → tr.id = x → ¬ tr.data.Ends) : Live x s'.world.store := by
  obtain ⟨row, hrow, hstatus⟩ := hlive
  rcases h.reached.rows hs with heq | ⟨id, new, hnone, -, -, heq⟩
    | ⟨i, message, history, ev, p, p', tr, old, rfl, hth, -, hmoved⟩
  · exact ⟨row, heq ▸ hrow, hstatus⟩
  · have hne : x ≠ id := by
      rintro rfl
      cases hnone.symm.trans hrow
    exact ⟨row, by rw [heq, Function.update_of_ne hne, hrow], hstatus⟩
  · by_cases hx : x = tr.id
    · obtain ⟨m, hm, htr⟩ := hmoved.command
      have hop : ev.op = .db (.transaction tr) := by
        rcases hmoved.reply with ⟨r, rfl, -⟩ | ⟨e, rfl⟩ <;> rfl
      have hengaged : Engaged tr.id ⟨.delivery message, history, p⟩ := by
        obtain ⟨op, reply⟩ := ev
        dsimp only at hop
        subst hop
        obtain ⟨info, history', k, hcall, -, -⟩ := hs.act_cases
        cases hth.symm.trans hcall
        exact htr.lifecycle.1 ▸ ⟨active_of_call hm, h.read_of_transaction hth hm⟩
      have hgoes := hends i ev _ tr rfl hth hop hengaged hx.symm
      refine ⟨tr.data.apply old, by rw [hmoved.executions, hx, Function.update_self], ?_⟩
      cases hdata : tr.data with
      | running startedAt => rfl
      | succeeded output completedAt => exact absurd (by rw [hdata]; trivial) hgoes
      | failed error completedAt => exact absurd (by rw [hdata]; trivial) hgoes
    · exact ⟨row, by rw [hmoved.executions, Function.update_of_ne hx, hrow], hstatus⟩

theorem RunsLive.step (hlive : RunsLive s) (h : ReachableUnder env C s)
    (hexclusive : Exclusive s) (hs : Pool.Step (workerSystem env) s l s') : RunsLive s' := by
  intro t th x hth hrunsOf
  have hengaged := hrunsOf.engaged
  obtain ⟨-, message, m, hinfo, hm, rfl, hruns⟩ := hrunsOf
  rcases hs.thread_cases hth with
    hold | ⟨info, -, -, rfl⟩ | ⟨info, history, op, k, reply, rfl, hold, hexec, rfl⟩
  · have hx := hlive t th _ hold ⟨hengaged.toActive, message, m, hinfo, hm, rfl, hruns⟩
    refine hx.step h hs ?_
    rintro i ev th' tr hl hth' - hengaged' htr
    obtain rfl := hexclusive _ t i th th' hx.not_ended hold hth' hengaged (htr ▸ hengaged')
    exact absurd hl (not_act_of_kept hs hold hth ev)
  · obtain ⟨row, hsaw, -⟩ := hruns.found
    cases hsaw
  · dsimp only at hinfo hruns
    subst hinfo
    have hgoes : ∀ ev ∈ history, ¬ Finishes ev.op := fun ev hev =>
      hruns.unfinished ev (List.mem_append_left _ hev)
    have hlast : ¬ Finishes op := hruns.unfinished ⟨op, reply⟩ (by simp)
    obtain ⟨row, hsaw, hstatus⟩ := hruns.found
    rcases List.mem_append.mp hsaw with hsaw | hsaw
    · have hbefore : RunsNodesOf m.executionId ⟨.delivery message, history, .call op k⟩ :=
        ⟨active_of_call hm, message, m, rfl, hm, rfl, hgoes, row, hsaw, hstatus⟩
      refine (hlive t _ _ hold hbefore).step h hs ?_
      rintro i ev th' tr hl - hop - - hends
      cases hl
      dsimp only at hop
      subst hop
      exact hlast hends
    · -- the execution was found by this call
      obtain ⟨rfl, hreply⟩ := Event.mk.inj (List.mem_singleton.mp hsaw)
      cases hreply
      obtain ⟨-, ctx, hrun⟩ := hexec
      obtain ⟨s₁, hfind, hw⟩ := WorkerOp.run_db hrun
      obtain ⟨hfound, rfl⟩ := Prod.mk.inj (Option.some.inj hfind)
      obtain ⟨row', hrow', rfl⟩ := Option.map_eq_some_iff.mp hfound
      exact ⟨row', by rw [hw]; exact hrow', hstatus⟩

/-! ## The nodes a delivery has done -/

/-- The node has a row in the execution, and the row has succeeded. -/
def NodeSucceeded (x nodeId : String) (rows : List WorkflowNodeExecution) : Prop :=
  ∃ row ∈ rows, row.IsOf x nodeId ∧ row.status = .succeeded

omit [Runtime] in
theorem NodeSucceeded.of_frame {nodeId : String} {rows rows' : List WorkflowNodeExecution}
    (h : NodeSucceeded x nodeId rows)
    (heq : rows'.filter (·.executionId = x) = rows.filter (·.executionId = x)) :
    NodeSucceeded x nodeId rows' := by
  obtain ⟨row, hrow, hof, hstatus⟩ := h
  exact ⟨row, mem_of_frame hrow hof.1 heq, hof, hstatus⟩

/-- What the engaged delivery of an execution has done is there. -/
def DoneSucceeded (s : WorkerPool) : Prop :=
  ∀ t th x, ¬ Ended x s.world.store → s.threads t = some th → Engaged x th →
    ∀ nodeId ∈ (progress th.history).done, NodeSucceeded x nodeId s.world.store.nodeExecutions

/-- So it is after one of its calls. -/
theorem DoneSucceeded.call (h : ReachableUnder env C s) {t : Nat} {info : Job}
    {history : WorkerHistory} {op : WorkerOp} {k : Except JsError op.Result → Worker Unit}
    {reply : Reply JsError op.Result} {rows : List WorkflowNodeExecution}
    (hth : s.threads t = some ⟨info, history, .call op k⟩)
    (heffect : NodeEffect s.world.store.nodeExecutions ⟨op, reply⟩ rows)
    (hactive : Active x ⟨info, history, .call op k⟩)
    (hdone : ∀ nodeId ∈ (progress history).done,
      NodeSucceeded x nodeId s.world.store.nodeExecutions) :
    ∀ nodeId ∈ (progress (history ++ [⟨op, reply⟩])).done, NodeSucceeded x nodeId rows := by
  obtain ⟨⟨message, rfl, m, hm, rfl⟩, -⟩ := hactive
  intro nodeId hmem
  rw [progress_append_singleton] at hmem
  have hstays : nodeId ∈ (progress history).done →
      (∀ row, row.IsOf m.executionId nodeId → row ∈ s.world.store.nodeExecutions →
        ¬ Touches ⟨op, reply⟩ row) → NodeSucceeded m.executionId nodeId rows := by
    intro hmem htouch
    obtain ⟨row, hrow, hof, hstatus⟩ := hdone nodeId hmem
    exact ⟨row, heffect.mem hrow (htouch row hof hrow), hof, hstatus⟩
  have hother : ∀ {n : String}, nodeId ∈ (progress history).done.filter (· ≠ n) →
      nodeId ∈ (progress history).done ∧ nodeId ≠ n := by
    intro n hmem
    simpa using List.mem_filter.mp hmem
  rcases (progress history).step_cases ⟨op, reply⟩ with ⟨heq, hwrites⟩
    | ⟨m', node, input, startedAt, row, hev, heq⟩ | ⟨m', node, input, startedAt, e, hev, heq⟩
    | ⟨id, data, reply', hev, happlied, heq⟩
  · rw [heq] at hmem
    exact hstays hmem fun row _ _ htouch => hwrites htouch.1 htouch.writes
  · rw [heq] at hmem
    obtain ⟨hmem, hne⟩ := hother hmem
    cases hev
    exact hstays hmem fun row hof _ htouch => hne (hof.2.symm.trans htouch.2.2)
  · rw [heq] at hmem
    obtain ⟨hmem, hne⟩ := hother hmem
    cases hev
    exact hstays hmem fun row hof _ htouch => hne (hof.2.symm.trans htouch.2.2)
  · cases hev
    -- the row that is updated is the one of the current node
    obtain ⟨message', m', hinfo, hm', -, current, hcurrent, row, hrow, hid, hof⟩ :=
      h.updatesRow hth
    cases hinfo
    obtain rfl := Option.some.inj (hm.symm.trans hm')
    rw [heq, NodeProgress.update_current hcurrent] at hmem
    by_cases hne : nodeId = current
    · subst hne
      have hcompletes : data.completes = true := by
        cases hcompletes : data.completes with
        | true => rfl
        | false => simp [hcompletes] at hmem
      refine ⟨data.apply row, heffect.apply_mem happlied hrow hid, ?_, ?_⟩
      · have hsame := WorkflowNodeExecution.sameRow_apply data row
        exact ⟨hsame.executionId.trans hof.1, hsame.nodeId.trans hof.2⟩
      · rw [data.apply_status, hcompletes, if_pos rfl]
    · have hmem' : nodeId ∈ (progress history).done := by
        dsimp only at hmem
        split at hmem
        · exact (List.mem_cons.mp hmem).resolve_left hne
        · exact (hother hmem).1
      refine hstays hmem' fun row' hof' hrow' htouch => hne ?_
      obtain rfl := h.uniqueNodes.eq_of_id hrow' hrow (htouch.2.trans hid.symm)
      exact hof'.2.symm.trans hof.2

/-- A delivery that has not read its execution has done nothing. -/
theorem ReachableUnder.unread_done (h : ReachableUnder env C s) {t : Nat} {info : Job}
    {history : WorkerHistory} {p : Worker Unit} (hth : s.threads t = some ⟨info, history, p⟩)
    (hactive : Active x ⟨info, history, p⟩) (hread : ¬ HasRead x history) :
    (progress history).done = [] := by
  obtain ⟨⟨message, rfl, m, hm, rfl⟩, -⟩ := hactive
  have hpast : Along (fun h ev => NodeRowOp message h ev.op) [] history :=
    along_mono (fun _ _ h => h.1) (h.nodeRowOp t _ hth).past
  have hwrites : ∀ ev ∈ history, ¬ WritesNode ev.op := by
    intro ev hev hwrites
    obtain ⟨first, rest, rfl, hop⟩ := hpast.mem hev
    obtain ⟨m', hm', hruns⟩ := NodeRowOp.runsNodes hop hwrites
    obtain rfl := Option.some.inj (hm.symm.trans hm')
    obtain ⟨row, hsaw, -⟩ := hruns.found
    exact hread ⟨_, List.mem_append_left _ hsaw, rfl⟩
  have hnothing : progress history = progress [] := progress_append (h := []) hwrites
  rw [hnothing]
  rfl

theorem DoneSucceeded.step (hdone : DoneSucceeded s) (h : ReachableUnder env C s)
    (hexclusive : Exclusive s) (hs : Pool.Step (workerSystem env) s l s') : DoneSucceeded s' :=
  EngagedKnows.step (K := fun x history rows =>
      ∀ nodeId ∈ (progress history).done, NodeSucceeded x nodeId rows)
    (fun hknows heq nodeId hmem => (hknows nodeId hmem).of_frame heq)
    (fun hth hactive hread nodeId hmem => by
      rw [h.unread_done hth hactive hread] at hmem
      cases hmem)
    (DoneSucceeded.call h) hdone h hexclusive hs

/-! ## Agreement -/

/-- The definition of a row is accepted, and all its nodes have succeeded in
the execution. -/
def NodesSucceeded (x : String) (row : WorkflowExecutionRow)
    (rows : List WorkflowNodeExecution) : Prop :=
  ∃ definition, workflowDefinitionSchema (some row.workflowVersion.definition) = .ok definition
    ∧ ∀ node ∈ definition.nodes, NodeSucceeded x node.id rows

/-- The nodes of an execution that has succeeded have succeeded. -/
def SucceededAgrees (s : WorkerPool) : Prop :=
  ∀ x row, s.world.store.executions x = some row → row.status = .succeeded →
    NodesSucceeded x row s.world.store.nodeExecutions

/-- Nobody writes the rows of an execution that has ended. -/
theorem ReachableUnder.frame_of_ended (h : ReachableUnder env C s) (hruns : RunsLive s)
    (hs : Pool.Step (workerSystem env) s l s') {row : WorkflowExecutionRow}
    (hrow : s.world.store.executions x = some row)
    (hterminal : isTerminalExecutionStatus row.status = true) :
    s'.world.store.nodeExecutions.filter (·.executionId = x)
      = s.world.store.nodeExecutions.filter (·.executionId = x) := by
  refine h.frame hs fun t ev th _ hth hruns' => ?_
  obtain ⟨row', hrow', hlive⟩ := hruns t th x hth hruns'
  obtain rfl := Option.some.inj (hrow.symm.trans hrow')
  cases hterminal.symm.trans hlive

omit [Runtime] in
theorem ExecutionUpdate.eq_succeeded_of_apply {data : ExecutionUpdate} {row : WorkflowExecutionRow}
    (h : (data.apply row).status = .succeeded) :
    ∃ output completedAt, data = .succeeded output completedAt := by
  cases data with
  | running startedAt => cases h
  | succeeded output completedAt => exact ⟨output, completedAt, rfl⟩
  | failed error completedAt => cases h

/-- A delivery completes its execution when its nodes have succeeded. -/
theorem Moved.nodesSucceeded (h : ReachableUnder env C s) (hdone : DoneSucceeded s) {i : Nat}
    {message : ConsumeMessage} {history : WorkerHistory} {reply : Reply JsError TransitionResult}
    {k : Except JsError TransitionResult → Worker Unit} {w' : Store} {tr : StatusTransition}
    {old : WorkflowExecutionRow}
    (hth : s.threads i = some ⟨.delivery message, history, .call (.db (.transaction tr)) k⟩)
    (hmoved : Moved message history ⟨.db (.transaction tr), reply⟩ s.world.store w' tr old)
    (hsucceeded : (tr.data.apply old).status = .succeeded) :
    NodesSucceeded tr.id (tr.data.apply old) s.world.store.nodeExecutions := by
  obtain ⟨m, hm, htr⟩ := hmoved.command
  have hid : tr.id = m.executionId := htr.lifecycle.1
  have hx : messageExecutionId message = m.executionId := by simp [messageExecutionId, hm]
  obtain ⟨output, completedAt, hdata⟩ := ExecutionUpdate.eq_succeeded_of_apply hsucceeded
  have hop : NodeRowOp message history (.db (.transaction tr)) := h.nodeRowOp.next hth
  obtain ⟨row, definition, hsaw, haccept, hall⟩ := hop output completedAt hdata
  rw [hx] at hsaw
  -- the definition that was read is still the one of the row
  have hversion : (tr.data.apply old).workflowVersion = row.workflowVersion := by
    have hle := (h.reached.histories i _ hth _ hsaw).found _ row rfl
    rw [← hid, hmoved.found] at hle
    cases hle with
    | later hversion _ _ _ => rw [hdata]; exact hversion
  have hlive : Live tr.id s.world.store :=
    ⟨old, hmoved.found, not_terminal_of_starts hmoved.starts⟩
  refine ⟨definition, hversion ▸ haccept, fun node hnode => ?_⟩
  rw [hid]
  exact hdone i _ _ (hid ▸ hlive.not_ended) hth
    ⟨active_of_call hm, h.read_of_transaction hth hm⟩ _ (hall node hnode)

theorem SucceededAgrees.step (hagrees : SucceededAgrees s) (h : ReachableUnder env C s)
    (hruns : RunsLive s) (hdone : DoneSucceeded s) (hs : Pool.Step (workerSystem env) s l s') :
    SucceededAgrees s' := by
  intro x row hrow hsucceeded
  have hkept : ∀ {row}, s.world.store.executions x = some row → row.status = .succeeded →
      NodesSucceeded x row s'.world.store.nodeExecutions := by
    intro row hrow hsucceeded
    obtain ⟨definition, haccept, hall⟩ := hagrees x row hrow hsucceeded
    have hframe := h.frame_of_ended hruns hs hrow (by rw [hsucceeded]; rfl)
    exact ⟨definition, haccept, fun node hnode => (hall node hnode).of_frame hframe⟩
  rcases h.reached.rows hs with heq | ⟨id, new, -, hnew, -, heq⟩
    | ⟨i, message, history, ev, p, p', tr, old, rfl, hth, -, hmoved⟩
  · exact hkept (heq ▸ hrow) hsucceeded
  · rw [heq] at hrow
    by_cases hx : x = id
    · subst hx
      obtain rfl : new = row := by simpa using hrow
      cases hnew.1.symm.trans hsucceeded
    · exact hkept (by rwa [Function.update_of_ne hx] at hrow) hsucceeded
  · rw [hmoved.executions] at hrow
    by_cases hx : x = tr.id
    · subst hx
      obtain rfl : tr.data.apply old = row := by simpa using hrow
      obtain ⟨op, reply⟩ := ev
      obtain ⟨info, h', k, hcall, hexec, -⟩ := hs.act_cases
      cases hth.symm.trans hcall
      obtain rfl : op = .db (.transaction tr) := by
        rcases hmoved.reply with ⟨r, hev, -⟩ | ⟨e, hev⟩
        · exact congrArg Event.op hev
        · exact congrArg Event.op hev
      obtain ⟨definition, haccept, hall⟩ := Moved.nodesSucceeded h hdone hth hmoved hsucceeded
      refine ⟨definition, haccept, fun node hnode => ?_⟩
      obtain ⟨r, hr, hof, hstatus⟩ := hall node hnode
      have hexec : env.exec (.db (.transaction tr)) s.world reply s'.world := hexec
      have heffect := exec_nodeEffect hexec
      exact ⟨r, heffect.mem hr fun htouch => htouch.writes, hof, hstatus⟩
    · exact hkept (by rwa [Function.update_of_ne hx] at hrow) hsucceeded

/-- What holds in the states of runs without overlap. -/
structure NodesAgree (s : WorkerPool) : Prop where
  exclusive : Exclusive s
  runsLive : RunsLive s
  done : DoneSucceeded s
  succeeded : SucceededAgrees s

theorem ReachableUnder.nodesAgree (h : ReachableUnder env NoOverlap s) : NodesAgree s := by
  induction h with
  | start hw =>
      subst hw
      exact
        { exclusive := fun _ _ _ _ _ => nofun
          runsLive := fun _ _ _ => nofun
          done := fun _ _ _ => nofun
          succeeded := fun _ _ => nofun }
  | step hreach hc hs ih =>
      exact
        { exclusive := ih.exclusive.step (ReachableUnder.reached hreach) hc hs
          runsLive := ih.runsLive.step hreach ih.exclusive hs
          done := ih.done.step hreach ih.exclusive hs
          succeeded := ih.succeeded.step hreach ih.runsLive ih.done hs }

/-- In every run in which the deliveries that read an execution before it has
ended do not overlap: an execution that has succeeded has exactly one row for each
node of its definition, and the row has succeeded; and no step changes the
rows of an execution that has ended. -/
theorem node_rows_agree (env : Environment) (s : WorkerPool)
    (h : ReachableUnder env NoOverlap s) (x : String) (row : WorkflowExecutionRow)
    (hrow : s.world.store.executions x = some row) :
    (row.status = .succeeded → ∃ definition,
      workflowDefinitionSchema (some row.workflowVersion.definition) = .ok definition
      ∧ ∀ node ∈ definition.nodes, ∃ r,
        s.world.store.nodeExecutions.filter (fun r => r.IsOf x node.id) = [r]
        ∧ r.status = .succeeded)
    ∧ (isTerminalExecutionStatus row.status = true → ∀ l s',
      Pool.Step (workerSystem env) s l s' →
        s'.world.store.nodeExecutions.filter (·.executionId = x)
          = s.world.store.nodeExecutions.filter (·.executionId = x)) := by
  have hagree := h.nodesAgree
  refine ⟨fun hsucceeded => ?_, fun hterminal l s' hs =>
    ReachableUnder.frame_of_ended h hagree.runsLive hs hrow hterminal⟩
  obtain ⟨definition, haccept, hall⟩ := hagree.succeeded x row hrow hsucceeded
  refine ⟨definition, haccept, fun node hnode => ?_⟩
  obtain ⟨r, hr, hof, hstatus⟩ := hall node hnode
  refine ⟨r, ?_, hstatus⟩
  rw [← Table.filter_key (ReachableUnder.uniqueNodes h).keys hr]
  refine List.filter_congr fun r' _ => ?_
  simp only [Prod.mk.injEq, hof.1, hof.2]

end

/-- Whether the thread has read the execution. -/
def hasRead (x : String) (th : WorkerThread) : Bool :=
  th.history.any fun ev =>
    match ev.op with
    | .db (.findExecution y) => y = x
    | _ => false

theorem hasRead_iff {x : String} {th : WorkerThread} :
    hasRead x th = true ↔ HasRead x th.history := by
  simp only [hasRead, List.any_eq_true, HasRead]
  refine exists_congr fun ev => and_congr_right fun _ => ?_
  split
  · rename_i y hop
    simp [hop]
  · rename_i hother
    exact iff_of_false nofun (hother x)

/-- Whether the step overlaps with nothing, as far as the first `k` threads
are concerned. -/
def overlapsNothing (k : Nat) (s : WorkerPool) : WorkerLabel → Bool
  | .act t ⟨.db (.findExecution x), _⟩ =>
      (s.world.store.executions x).any (fun row => isTerminalExecutionStatus row.status)
        || (List.range k).all fun t' => t' = t || (s.threads t').all fun th =>
          th.prog.ended?.isSome || !hasRead x th
  | _ => true

theorem noOverlap_of_overlapsNothing [Runtime] {k : Nat} {s : WorkerPool} {l : WorkerLabel}
    (hfree : ∀ t, k ≤ t → s.threads t = none) (h : overlapsNothing k s l = true) :
    NoOverlap s l := by
  rintro t ⟨op, reply⟩ x rfl hop hended t' th ht hth hengaged
  dsimp only at hop
  subst hop
  rcases (Bool.or_eq_true _ _).mp h with hterminal | hothers
  · obtain ⟨row, hrow, hstatus⟩ := (Option.any_eq_true _ _).mp hterminal
    exact hended ⟨row, hrow, hstatus⟩
  · have hk : t' < k := by
      by_contra hk
      cases (hfree t' (Nat.le_of_not_lt hk)).symm.trans hth
    have hover := List.all_eq_true.mp hothers t' (List.mem_range.mpr hk)
    simp [ht, hth, hengaged.running, hasRead_iff.mpr hengaged.read] at hover

/-- The theorem after two deliveries of one command. Delivery 1 has started
while the execution was pending, and reads its row when delivery 0 has
completed it. -/
theorem node_rows_agree_redelivered :
    ∃ (_ : Runtime) (s : WorkerPool) (row : WorkflowExecutionRow),
      ReachableUnder (openEnvironment (newRow defaultWorkflowDefinition)) NoOverlap s
      ∧ (∀ t < 2, ∃ th, s.threads t = some th ∧ th.prog = .pure ()
        ∧ HasRead "execution" th.history)
      ∧ s.world.store.executions "execution" = some row ∧ row.status = .succeeded
      ∧ (∃ definition,
        workflowDefinitionSchema (some row.workflowVersion.definition) = .ok definition
        ∧ ∀ node ∈ definition.nodes, ∃ r,
          s.world.store.nodeExecutions.filter (fun r => r.IsOf "execution" node.id) = [r]
          ∧ r.status = .succeeded)
      ∧ s.world.store.nodeExecutions ≠ [] := by
  let _ : Runtime := .sample false
  obtain ⟨s, hs, hcheck⟩ := exists_reachable_of_checked defaultWorkflowDefinition 2
    [.arrive (newMessage defaultWorkflowDefinition), .deliver 0, .deliver 1,
      .run 0 40 0 fun _ => true, .run 1 40 50 fun _ => true]
    (overlapsNothing 2) (C := NoOverlap) (fun _ _ _ _ => nofun)
    (fun _ _ => noOverlap_of_overlapsNothing)
    (P := fun s => s.world.hasStatus "execution" .succeeded && !s.world.store.nodeExecutions.isEmpty
      && (List.range 2).all fun t => (s.threads t).any fun th =>
        th.prog.returned && hasRead "execution" th)
    (by decide +kernel)
  simp only [Bool.and_eq_true, List.all_eq_true, List.mem_range] at hcheck
  obtain ⟨⟨hsucceeded, hnodes⟩, hreturned⟩ := hcheck
  obtain ⟨row, hrow, hstatus⟩ := World.hasStatus_iff.mp hsucceeded
  have hagree := (node_rows_agree _ s hs "execution" row hrow).1 hstatus
  refine ⟨_, s, row, hs, fun t ht => ?_, hrow, hstatus, hagree, by simpa using hnodes⟩
  obtain ⟨th, hth, hover⟩ := (Option.any_eq_true _ _).mp (hreturned t ht)
  obtain ⟨hover, hread⟩ := (Bool.and_eq_true _ _).mp hover
  exact ⟨th, hth, eq_pure_of_returned hover, hasRead_iff.mp hread⟩

/-- The command is delivered twice. Delivery 1 finds the execution running,
delivery 0 completes it, and delivery 1 comes to the first node. -/
def overlappingDeliveries [Runtime] : List Turn :=
  [.arrive (newMessage defaultWorkflowDefinition), .deliver 0, .deliver 1,
    .run 0 4 0 fun _ => true, .run 1 2 4 fun _ => true, .run 0 40 6 fun _ => true,
    .run 1 3 50 fun _ => true]

/-- The execution has succeeded and so have its nodes; one more call, and the
row of a node is running. -/
theorem node_rows_disagree :
    ∃ (_ : Runtime) (env : Environment) (s s' : WorkerPool) (labels : List WorkerLabel)
      (row row' : WorkflowExecutionRow), ReachableSystem env s
      ∧ Pool.Run (workerSystem env) (fun _ _ => True) s labels s'
      ∧ s.world.store.executions "execution" = some row ∧ row.status = .succeeded
      ∧ (∀ r ∈ s.world.store.nodeExecutions, r.status = .succeeded)
      ∧ s'.world.store.executions "execution" = some row' ∧ row'.status = .succeeded
      ∧ ∃ r ∈ s'.world.store.nodeExecutions, r.executionId = "execution"
        ∧ r.status = .running := by
  let _ : Runtime := .sample false
  obtain ⟨s, labels, s', hs, hrun, hP⟩ := exists_run_of_turns defaultWorkflowDefinition
    overlappingDeliveries [.run 1 1 53 fun _ => true]
    (fun _ => true) (C := fun _ _ => True) (fun _ => trivial) (fun _ _ _ => trivial)
    (P := fun _ s s' => (s.world.hasStatus "execution" .succeeded
        && s.world.store.nodeExecutions.all fun r => r.status = .succeeded)
      && (s'.world.hasStatus "execution" .succeeded
        && s'.world.store.nodeExecutions.any
          fun r => r.executionId = "execution" ∧ r.status = .running))
    (by decide +kernel)
  obtain ⟨hbefore, hafter⟩ := (Bool.and_eq_true _ _).mp hP
  obtain ⟨hstatus, hnodes⟩ := (Bool.and_eq_true _ _).mp hbefore
  obtain ⟨hstatus', hrunning⟩ := (Bool.and_eq_true _ _).mp hafter
  obtain ⟨row, hrow, hsucceeded⟩ := World.hasStatus_iff.mp hstatus
  obtain ⟨row', hrow', hsucceeded'⟩ := World.hasStatus_iff.mp hstatus'
  exact ⟨_, _, s, s', labels, row, row', hs, hrun, hrow, hsucceeded, by simpa using hnodes, hrow',
    hsucceeded', by simpa using hrunning⟩

end FlowPilot
