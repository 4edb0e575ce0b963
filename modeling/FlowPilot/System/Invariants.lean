import FlowPilot.System.Refinement

/-!
# Reachable states of the running system

In every reachable state each thread keeps to its discipline and has seen
the truth (`Reached`); so the store only advances, and a step changes the
row of an execution only as a delivery's transaction does.
-/

namespace FlowPilot

open Prog hiding pure throw bind tryCatch

section

variable [Runtime]

/-! ## The discipline of the threads -/

/-- What a thread keeps to: a delivery to `DeliveryOp`, a dispatcher to
recording. -/
def workerDiscipline : Pool.Discipline Job WorkerOp WorkerOp.Result JsError where
  assumption
    | .delivery _ => ReplyOK
    | .outboxDispatcher => fun _ _ => True
  obligation
    | .delivery message => DeliveryOp message
    | .outboxDispatcher => fun _ op => RecordingOp op
  returned
    | .delivery _ => Settled
    | .outboxDispatcher => fun _ => True
  threw
    | .delivery _ => Open
    | .outboxDispatcher => fun _ => True

theorem workerDiscipline_keeps : ∀ job : Job, workerDiscipline.Keeps job job.program []
  | .delivery _ => handleDelivery_keeps
  | .outboxDispatcher =>
      wp_mono (fun _ _ _ => trivial) (fun _ _ _ => trivial)
        (wp_of_spec outboxDispatcherCycle_spec fun _ _ _ hop => hop)

omit [Runtime] in
/-- The store answers as a delivery relies on. -/
theorem replyOK_of_exec {env : Environment} {h : WorkerHistory} {op : WorkerOp} {w w' : World}
    {reply : Reply JsError op.Result} (ht : HistoryTrue w.store h)
    (hexec : env.exec op w reply w') : ReplyOK h ⟨op, reply⟩ where
  infallible := Environment.exec_infallible hexec
  found_id id row he := by
    cases he
    obtain ⟨-, ctx, hrun⟩ := hexec
    obtain ⟨s, hfind, rfl⟩ := WorkerOp.run_db hrun
    obtain ⟨hrow, rfl⟩ := Prod.mk.inj (Option.some.inj hfind)
    obtain ⟨row', -, rfl⟩ := Option.map_eq_some_iff.mp hrow
    rfl
  found_again id he row hsaw := by
    cases he
    obtain ⟨-, ctx, hrun⟩ := hexec
    obtain ⟨s, hfind, rfl⟩ := WorkerOp.run_db hrun
    obtain ⟨hrow, rfl⟩ := Prod.mk.inj (Option.some.inj hfind)
    obtain ⟨later, hlater⟩ := ((ht _ hsaw).found id row rfl).exists_later
    rw [Store.findExecution, hlater] at hrow
    cases hrow
  outbox_row t r he hcount := by
    cases he
    obtain ⟨-, ctx, hrun⟩ := hexec
    obtain ⟨s, hrun', rfl⟩ := WorkerOp.run_db hrun
    rcases runTransaction_cases hrun' with ⟨rfl, -⟩ | ⟨row, outboxRow, -, -, rfl, -⟩
    · exact absurd rfl hcount
    · rfl

/-! ## Reachable states -/

variable {env : Environment} {C : WorkerPool → WorkerLabel → Prop} {s s' : WorkerPool}
  {l : WorkerLabel}

/-- The states of the runs whose steps meet `C`. -/
abbrev ReachableUnder (env : Environment) (C : WorkerPool → WorkerLabel → Prop)
    (s : WorkerPool) : Prop :=
  Pool.Reachable (workerSystem env) (· = .empty) C s

/-- Every thread has seen the truth and keeps to its discipline. -/
structure Reached (s : WorkerPool) : Prop where
  histories : ∀ t th, s.threads t = some th → HistoryTrue s.world.store th.history
  conform : s.Conform workerDiscipline

/-- A delivery in a reached state may make the call it makes. -/
theorem Reached.deliveryOp (hr : Reached s) {t : Nat} {message : ConsumeMessage}
    {h : WorkerHistory} {op : WorkerOp} {k : Except JsError op.Result → Worker Unit}
    (hth : s.threads t = some ⟨.delivery message, h, .call op k⟩) : DeliveryOp message h op :=
  (hr.conform t _ hth).rest.1

/-- The store only advances. -/
theorem Reached.advances (hr : Reached s) (hs : Pool.Step (workerSystem env) s l s') :
    s.world.store.Advances s'.world.store := by
  rcases workerStep_cases hs with
    ⟨t, info, h, op, k, reply, -, hth, hexec, -⟩ | ⟨-, henv⟩ | ⟨-, commands, hworld⟩
  · have hop := (hr.conform t _ hth).rest.1
    cases info with
    | delivery message => exact delivery_advances hop (hr.histories t _ hth) hexec
    | outboxDispatcher => exact .of_view_eq (view_of_recordingOp (Or.inl hop) hexec)
  · exact envStep_advances henv
  · rw [hworld]
    exact .refl _

/-- The rows of the executions after a step: as before, with a new one, or
with one moved by a delivery. -/
theorem Reached.rows (hr : Reached s) (hs : Pool.Step (workerSystem env) s l s') :
    s'.world.store.executions = s.world.store.executions
    ∨ (∃ id row, s.world.store.executions id = none ∧ row.IsNew ∧ env.creates id row
      ∧ s'.world.store.executions = Function.update s.world.store.executions id (some row))
    ∨ ∃ i message h ev p p' t row, l = .act i ev
      ∧ s.threads i = some ⟨.delivery message, h, p⟩
      ∧ s'.threads i = some ⟨.delivery message, h ++ [ev], p'⟩
      ∧ Moved message h ev s.world.store s'.world.store t row := by
  rcases workerStep_cases hs with
    ⟨i, info, h, op, k, reply, rfl, hth, hexec, hthreads⟩ | ⟨rfl, -⟩ | ⟨-, commands, hworld⟩
  · have hop := (hr.conform i _ hth).rest.1
    cases info with
    | delivery message =>
        rcases delivery_rows hop hexec with heq | ⟨t, row, hmoved⟩
        · exact Or.inl heq
        · have hth' : s'.threads i = some ⟨.delivery message, h ++ [⟨op, reply⟩], k reply.result⟩ :=
            hthreads ▸ Function.update_self ..
          exact Or.inr (Or.inr ⟨i, message, h, _, _, _, t, row, rfl, hth, hth', hmoved⟩)
    | outboxDispatcher =>
        exact Or.inl (funext fun id =>
          congrArg ExecutionView.row (view_of_recordingOp (Or.inl hop) hexec id))
  · cases hs with
    | env henv =>
        cases henv with
        | @createExecution id row hnone hnew hcreates =>
            exact Or.inr (Or.inl ⟨id, row, hnone, hnew, hcreates, rfl⟩)
        | requestExecution _ _ _ _ _ => exact Or.inl (by rw [World.take_store])
        | arrive _ => exact Or.inl rfl
        | retryExpires _ => exact Or.inl rfl
  · exact Or.inl (by rw [hworld])

/-- Only a call changes the outbox, the rows of nodes or the traces. -/
theorem tables_of_step (hs : Pool.Step (workerSystem env) s l s') :
    (∃ t op reply, l = .act t ⟨op, reply⟩ ∧ env.exec op s.world reply s'.world)
    ∨ (∀ t ev, l ≠ .act t ev) ∧ s'.world.store.outbox = s.world.store.outbox
      ∧ s'.world.store.nodeExecutions = s.world.store.nodeExecutions
      ∧ s'.world.store.aiTraces = s.world.store.aiTraces := by
  rcases workerStep_cases hs with
    ⟨t, info, h, op, k, reply, rfl, -, hexec, -⟩ | ⟨rfl, -⟩ | ⟨hl, commands, hworld⟩
  · exact Or.inl ⟨t, op, reply, rfl, hexec⟩
  · refine Or.inr ⟨by simp, ?_⟩
    cases hs with
    | env henv =>
        cases henv with
        | requestExecution _ _ _ _ _ => simp
        | _ => exact ⟨rfl, rfl, rfl⟩
  · rw [hworld]
    exact Or.inr ⟨hl, rfl, rfl, rfl⟩

/-- What the threads have seen stays true. -/
theorem Reached.histories_step (hr : Reached s) (hs : Pool.Step (workerSystem env) s l s') :
    ∀ t th, s'.threads t = some th → HistoryTrue s'.world.store th.history := by
  intro t th hth
  have hadvances := hr.advances hs
  rcases hs.thread_cases hth with
    hold | ⟨info, -, -, rfl⟩ | ⟨info, h, op, k, reply, -, hold, hexec, rfl⟩
  · exact (hr.histories t th hold).mono hadvances
  · exact fun ev hev => absurd hev List.not_mem_nil
  · intro ev hev
    rcases List.mem_append.mp hev with hev | hev
    · exact ((hr.histories t _ hold).mono hadvances) ev hev
    · rw [List.mem_singleton.mp hev]
      exact Environment.exec_eventTrue hexec

theorem ReachableUnder.reached (h : ReachableUnder env C s) : Reached s := by
  obtain ⟨hhistories, hconform⟩ := Pool.Reachable.invariant workerDiscipline
    (fun s => ∀ t th, s.threads t = some th → HistoryTrue s.world.store th.history)
    workerDiscipline_keeps (fun _ _ _ _ hth => by cases hth)
    (fun s t info h op k reply w' hinv _ _ hth hexec => by
      cases info with
      | delivery message => exact replyOK_of_exec (hinv t _ hth) hexec
      | outboxDispatcher => trivial)
    (fun s s' l hinv hconf _ _ hs => Reached.histories_step ⟨hinv, hconf⟩ hs) h
  exact ⟨hhistories, hconform⟩

end

end FlowPilot
