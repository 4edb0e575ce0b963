import FlowPilot.System.EventOrder
import FlowPilot.Worker.StartTimes

/-!
# The duration a completed event tells

An execution is started once, so the time in its row never changes; and a
delivery that has read or written that time knows it for good. What it tells
as the duration is therefore true of the row, except after a lost race for
the start: then the delivery goes on with its own time, and the row has that
of the other. `CompletesStoredStart` is the condition that the two are the
same.
-/

namespace FlowPilot

open Prog hiding pure throw bind tryCatch

/-! ## Start times of rows -/

/-- Every step leaves the start of an execution that was started. -/
theorem LifecycleStep.startedAt {v v' : ExecutionView} (hs : LifecycleStep v v')
    {row : WorkflowExecutionRow} (hrow : v.row = some row) (hstatus : row.status ≠ .pending) :
    ∃ later, v'.row = some later ∧ later.status ≠ .pending
      ∧ later.startedAt = row.startedAt := by
  cases hs with
  | create hnone _ => cases hnone.symm.trans hrow
  | @move row' data kind payload hrow' hstarts _ =>
      obtain rfl := Option.some.inj (hrow'.symm.trans hrow)
      refine ⟨_, rfl, ?_⟩
      cases data with
      | running startedAt => exact absurd hstarts hstatus
      | succeeded output completedAt => exact ⟨nofun, rfl⟩
      | failed error completedAt => exact ⟨nofun, rfl⟩
  | resume _ _ _ _ => exact ⟨row, hrow, hstatus, rfl⟩

/-- Every step leaves an execution that runs with a start. -/
theorem LifecycleStep.running_startedAt {v v' : ExecutionView} (hs : LifecycleStep v v')
    (h : ∀ row, v.row = some row → row.status = .running → row.startedAt.isSome) :
    ∀ row, v'.row = some row → row.status = .running → row.startedAt.isSome := by
  cases hs with
  | create _ hnew =>
      intro row hrow hstatus
      obtain rfl := Option.some.inj hrow
      cases hnew.1.symm.trans hstatus
  | @move row data kind payload hrow hstarts _ =>
      intro row' hrow' hstatus
      obtain rfl := Option.some.inj hrow'
      cases data with
      | running startedAt => rfl
      | succeeded output completedAt => cases hstatus
      | failed error completedAt => cases hstatus
  | resume _ _ _ _ => exact h

/-- The execution has been started, at `startedAt`. -/
def StartedAt (s : Store) (x : String) (startedAt : Int) : Prop :=
  ∃ row, s.executions x = some row ∧ row.status ≠ .pending ∧ row.startedAt = some startedAt

theorem StartedAt.mono {s s' : Store} {x : String} {startedAt : Int} (h : StartedAt s x startedAt)
    (hs : s.Advances s') : StartedAt s' x startedAt := by
  obtain ⟨row, hrow, hstatus, hstartedAt⟩ := h
  rcases hs x with heq | hstep
  · exact ⟨row, (congrArg ExecutionView.row heq).trans hrow, hstatus, hstartedAt⟩
  · obtain ⟨later, hlater, hstatus', hsame⟩ := hstep.startedAt hrow hstatus
    exact ⟨later, hlater, hstatus', hsame.trans hstartedAt⟩

/-- The duration that an event tells. -/
def LifecyclePayload.durationMs : LifecyclePayload → Option Int
  | completed _ _ _ durationMs => some durationMs
  | _ => none

/-- The time between the start and the completion of its execution, as the
row has them, is the duration the event tells, if it tells one. -/
def TellsDuration (s : Store) (payload : LifecyclePayload) : Prop :=
  ∀ durationMs, payload.durationMs = some durationMs →
    ∃ row startedAt completedAt, s.executions payload.executionId = some row
      ∧ isTerminalExecutionStatus row.status = true ∧ row.startedAt = some startedAt
      ∧ row.completedAt = some completedAt ∧ durationMs = completedAt - startedAt

theorem TellsDuration.mono {s s' : Store} {payload : LifecyclePayload}
    (h : TellsDuration s payload) (hs : s.Advances s') : TellsDuration s' payload := by
  intro durationMs hduration
  obtain ⟨row, startedAt, completedAt, hrow, hterminal, htimes⟩ := h durationMs hduration
  have hle := hs.rowLe payload.executionId
  rw [hrow] at hle
  obtain ⟨later, hlater⟩ := hle.exists_later
  rw [hlater] at hle
  cases hle with
  | later _ _ _ hended =>
      obtain rfl := hended hterminal
      exact ⟨_, startedAt, completedAt, hlater, hterminal, htimes⟩

/-! ## What deliveries know -/

/-- What a call that was answered says about the start is true. -/
structure StartSeen (w : World) (ev : WorkerEvent) : Prop where
  read : ∀ x row, ev = ⟨.db (.findExecution x), .ok (some row)⟩ →
    WorkflowExecutionRow.status row.toWorkflowExecutionRow = .running →
    ∃ startedAt, row.startedAt = some startedAt ∧ StartedAt w.store x startedAt
  started : ∀ (t : StatusTransition) (r : TransitionResult) startedAt,
    ev = ⟨.db (.transaction t), .ok r⟩ → t.data = .running startedAt → r.count ≠ 0 →
    StartedAt w.store t.id startedAt

section

variable [Runtime] {env : Environment} {C : WorkerPool → WorkerLabel → Prop} {s s' : WorkerPool}
  {l : WorkerLabel} {x : String}

theorem ReachableUnder.running_startedAt (h : ReachableUnder env C s) :
    ∀ x row, s.world.store.executions x = some row → row.status = .running →
      row.startedAt.isSome := by
  induction h with
  | start hw =>
      subst hw
      exact fun _ _ hrow => by cases hrow
  | step hreach _ hs ih =>
      intro x
      rcases (ReachableUnder.reached hreach).advances hs x with heq | hstep
      · have hrow := congrArg ExecutionView.row heq
        exact fun row h => ih x row (hrow.symm.trans h)
      · exact hstep.running_startedAt (ih x)

omit [Runtime] in
/-- A call is true of the store it leaves. -/
theorem startSeen_of_exec {op : WorkerOp} {w w' : World} {reply : Reply JsError op.Result}
    (hexec : env.exec op w reply w') (hrunning : ∀ x row, w'.store.executions x = some row →
      row.status = .running → row.startedAt.isSome) : StartSeen w' ⟨op, reply⟩ where
  read x row he hstatus := by
    cases he
    obtain ⟨-, ctx, hrun⟩ := hexec
    obtain ⟨s, hfind, rfl⟩ := WorkerOp.run_db hrun
    obtain ⟨hrow, rfl⟩ := Prod.mk.inj (Option.some.inj hfind)
    obtain ⟨row', hrow', rfl⟩ := Option.map_eq_some_iff.mp hrow
    obtain ⟨startedAt, hstartedAt⟩ := Option.isSome_iff_exists.mp (hrunning x row' hrow' hstatus)
    exact ⟨startedAt, hstartedAt, row', hrow', ne_of_eq_of_ne hstatus nofun, hstartedAt⟩
  started t r startedAt he hdata hcount := by
    cases he
    obtain ⟨-, ctx, hrun⟩ := hexec
    obtain ⟨s, hrun', rfl⟩ := WorkerOp.run_db hrun
    rcases runTransaction_cases hrun' with ⟨rfl, -⟩ | ⟨row, outboxRow, -, -, -, hupsert⟩
    · exact absurd rfl hcount
    · refine ⟨t.data.apply row, ?_, ?_⟩
      · show s.executions t.id = _
        rw [Store.upsertOutbox_executions hupsert]
        exact Function.update_self ..
      · rw [hdata]
        exact ⟨nofun, rfl⟩

theorem ReachableUnder.startSeen (h : ReachableUnder env C s) :
    ∀ t th, s.threads t = some th → ∀ ev ∈ th.history, StartSeen s.world ev := by
  have halong := Pool.Reachable.along (F := fun w _ ev => StartSeen w ev)
    (fun hreach _ hs _ ev hseen => by
      have hadvances := (ReachableUnder.reached hreach).advances hs
      refine ⟨fun x row he hstatus => ?_, fun t r startedAt he hdata hcount => ?_⟩
      · obtain ⟨startedAt, hstartedAt, hstored⟩ := hseen.read x row he hstatus
        exact ⟨startedAt, hstartedAt, hstored.mono hadvances⟩
      · exact (hseen.started t r startedAt he hdata hcount).mono hadvances)
    (fun hreach hc _ hs => by
      obtain ⟨_, _, _, -, hexec, -⟩ := hs.act_cases
      exact startSeen_of_exec hexec (ReachableUnder.running_startedAt (.step hreach hc hs))) h
  intro t th hth ev hev
  obtain ⟨_, _, -, hseen⟩ := (halong t th hth).mem hev
  exact hseen

/-- The start a delivery knows is the one in the row, unless it came too
late to write it. -/
theorem KnowsStart.stored {t : Nat} {th : WorkerThread} {startedAt : Int}
    (hk : KnowsStart x th.history startedAt) (h : ReachableUnder env C s)
    (hth : s.threads t = some th) :
    StartedAt s.world.store x startedAt ∨ LostStartAt x startedAt th.history := by
  cases hk with
  | read now hsaw hstatus =>
      obtain ⟨startedAt, hstartedAt, hstored⟩ := (h.startSeen t th hth _ hsaw).read x _ rfl hstatus
      rw [hstartedAt]
      exact Or.inl hstored
  | started hsaw hid hdata hcount =>
      subst hid
      exact Or.inl ((h.startSeen t th hth _ hsaw).started _ _ _ rfl hdata hcount)
  | lost hlost => exact Or.inr hlost

/-! ## Durations -/

/-- A delivery that came too late to start the execution at a time of its
own completes it only if it was started at that time. -/
def CompletesStoredStart (s : WorkerPool) (l : WorkerLabel) : Prop :=
  ∀ i th t (reply : Reply JsError TransitionResult) output completedAt startedAt row,
    l = .act i ⟨.db (.transaction t), reply⟩ → reply.applied = true →
    t.data = .succeeded output completedAt → s.threads i = some th →
    LostStartAt t.id startedAt th.history → s.world.store.executions t.id = some row →
    row.status = .running → row.startedAt = some startedAt

theorem Job.program_knownStart :
    ∀ job : Job, SafeFrom (KnownStartOp job.executionId) [] job.program
  | .delivery message => handleDelivery_knownStart message []
  | .outboxDispatcher =>
      knownStart_of_leaves (issues_preliminary_leaves outboxDispatcherCycle_preliminary) []

/-- A completed event is stored by the transaction that completes. -/
theorem Reached.completes (hr : Reached s) {t : Nat} {info : Job} {h : WorkerHistory}
    {op : WorkerOp} {k : Except JsError op.Result → Worker Unit}
    (hth : s.threads t = some ⟨info, h, .call op k⟩) {message : WorkflowLifecycleMessage}
    (hstores : Stores op message) (hkeyed : message.Keyed) {workflowId : String} {output : Record}
    {durationMs : Int} (hpayload : message.payload = .completed workflowId x output durationMs) :
    ∃ m eventId output' startedAt completedAt, info.executionId = m.executionId
      ∧ op = .db (.transaction
        (completeTransition m m.executionId eventId output' startedAt completedAt)) := by
  have hlifecycle : IsLifecycleKey message.idempotencyKey := by
    rw [hkeyed.idempotencyKey, hpayload]
    exact ⟨x, Or.inr (Or.inl rfl)⟩
  cases info with
  | outboxDispatcher =>
      have hop : RecordingOp op := (hr.conform t _ hth).rest.1
      cases hstores with
      | upsert routingKey message => exact absurd hlifecycle hop
      | transaction t => exact hop.elim
  | delivery message' =>
      have hop := hr.deliveryOp hth
      cases hstores with
      | upsert routingKey message =>
          cases hop with
          | node hop =>
              rcases hop with hop | ⟨_, _, he⟩
              · exact absurd hlifecycle hop
              · cases he
          | resume _ _ hstarted _ => cases hstarted.symm.trans hpayload
      | transaction t =>
          cases hop with
          | node hop =>
              rcases hop with hop | ⟨_, _, he⟩
              · exact hop.elim
              · cases he
          | @transition m _ hm _ ht =>
              cases ht with
              | start eventId startedAt => cases hpayload
              | complete eventId output' startedAt completedAt _ =>
                  exact ⟨m, eventId, output', startedAt, completedAt,
                    by simp [Job.executionId, messageExecutionId, hm], rfl⟩
              | fail eventId failureRecord failedAt => cases hpayload

omit [Runtime] in
/-- A transaction leaves the store as it was, or takes effect and moves its
execution. -/
theorem exec_transaction_cases {t : StatusTransition} {w w' : World}
    {reply : Reply JsError TransitionResult}
    (hexec : env.exec (.db (.transaction t)) w reply w') :
    w'.store = w.store ∨ ∃ row, w.store.executions t.id = some row ∧ row.status ∈ t.fromStatuses
      ∧ reply.applied = true
      ∧ w'.store.executions
        = Function.update w.store.executions t.id (some (t.data.apply row)) := by
  rcases Environment.exec_cases hexec with ⟨rfl, -⟩ | ⟨ctx, r, hrun, hreply⟩
  · exact Or.inl rfl
  have happlied : reply.applied = true := by
    rcases hreply with ⟨rfl, -⟩ | ⟨e, rfl, -⟩
    · rfl
    · rfl
  obtain ⟨s, hrun', rfl⟩ := WorkerOp.run_db hrun
  rcases runTransaction_cases hrun' with ⟨-, rfl, -⟩ | ⟨row, outboxRow, hrow, hstatus, -, hupsert⟩
  · exact Or.inl rfl
  · exact Or.inr ⟨row, hrow, hstatus, happlied, Store.upsertOutbox_executions hupsert⟩

/-- A step that stores an event changes nothing else, or the event tells the
duration, if it tells one. -/
theorem ReachableUnder.stored_tellsDuration (h : ReachableUnder env C s)
    {t : Nat} {op : WorkerOp} {reply : Reply JsError op.Result}
    (hc : CompletesStoredStart s (.act t ⟨op, reply⟩))
    (hs : Pool.Step (workerSystem env) s (.act t ⟨op, reply⟩) s')
    {message : WorkflowLifecycleMessage} (hstores : Stores op message) :
    s'.world.store = s.world.store ∨ TellsDuration s'.world.store message.payload := by
  obtain ⟨info, history, k, hth, hexec, -⟩ := hs.act_cases
  have hkeyed := ((ReachableUnder.outboxOp h).next hth |>.eventOf hstores).toKeyed
  rw [or_iff_not_imp_left]
  intro hmoved durationMs hduration
  obtain ⟨workflowId, x, output, hpayload⟩ : ∃ workflowId x output,
      message.payload = .completed workflowId x output durationMs := by
    cases hpayload : message.payload with
    | completed workflowId x output durationMs' =>
        rw [hpayload] at hduration
        obtain rfl := Option.some.inj hduration
        exact ⟨workflowId, x, output, rfl⟩
    | _ =>
        rw [hpayload] at hduration
        cases hduration
  obtain ⟨m, eventId, output', a, completedAt, hid, rfl⟩ :=
    (ReachableUnder.reached h).completes hth hstores hkeyed hpayload
  cases hstores
  rcases exec_transaction_cases hexec with hsame | ⟨row, hrow, hstatus, happlied, hexecutions⟩
  · exact absurd hsame hmoved
  have hrunning : row.status = .running := List.mem_singleton.mp hstatus
  have hobeys := Pool.Reachable.obeys Job.program_knownStart h
  obtain ⟨_, startedAt, htells, hknows⟩ := hobeys.next hth output' completedAt rfl
  rw [hid] at hknows
  -- the row has the start the delivery knows
  have hstart : row.startedAt = some startedAt := by
    rcases hknows.stored h hth with ⟨row', hrow', -, hstartedAt⟩ | hlost
    · obtain rfl := Option.some.inj (hrow.symm.trans hrow')
      exact hstartedAt
    · exact hc t _ _ reply output' completedAt startedAt row rfl happlied rfl hth hlost hrow
        hrunning
  obtain ⟨-, rfl, rfl, rfl⟩ := LifecyclePayload.completed.inj hpayload
  obtain ⟨-, -, -, htime⟩ := LifecyclePayload.completed.inj htells
  refine ⟨ExecutionUpdate.apply (.succeeded output' completedAt) row, startedAt, completedAt, ?_,
    rfl, hstart, rfl, htime⟩
  rw [hexecutions]
  exact Function.update_self ..

theorem ReachableUnder.tellsDuration (h : ReachableUnder env CompletesStoredStart s) :
    ∀ row ∈ s.world.store.outbox, TellsDuration s.world.store row.payload.payload := by
  induction h with
  | start hw =>
      subst hw
      exact fun row hrow => by cases hrow
  | @step s s' l hreach hc hs ih =>
      have hadvances := (ReachableUnder.reached hreach).advances hs
      have hold : ∀ row ∈ s.world.store.outbox, TellsDuration s'.world.store row.payload.payload :=
        fun row hrow => (ih row hrow).mono hadvances
      intro row' hrow'
      rcases outboxEffect_of_step hs with ⟨heq, -⟩ | ⟨t, op, reply, rfl, heffect⟩
      · exact hold row' (heq ▸ hrow')
      · rcases heffect.origin hrow' with
          hrow | ⟨ctx, routingKey, message, hstores, rfl⟩ | ⟨row, hrow, data, -, -, rfl⟩
        · exact hold row' hrow
        · rcases ReachableUnder.stored_tellsDuration hreach hc hs hstores with hsame | htells
          · exact hold _ (hsame ▸ hrow')
          · exact htells
        · rw [data.apply_payload]
          exact hold row hrow

/-- In every run in which a delivery that came too late for the start
completes only executions that were started at its time, a completed event
tells the time between the start and the completion of its execution. -/
theorem completed_durationMs (env : Environment) (s : WorkerPool)
    (h : ReachableUnder env CompletesStoredStart s) :
    ∀ message ∈ s.world.store.outbox, message.eventName = .workflowExecutionCompleted →
      ∃ row startedAt completedAt,
        s.world.store.executions message.payload.payload.executionId = some row
        ∧ row.startedAt = some startedAt ∧ row.completedAt = some completedAt
        ∧ message.payload.payload.durationMs = some (completedAt - startedAt) := by
  intro message hmessage hname
  have hkeyed := ReachableUnder.keyed h message hmessage
  have htells := ReachableUnder.tellsDuration h message hmessage
  rw [message.eventName_eq, hkeyed.eventName] at hname
  obtain ⟨workflowId, x, output, durationMs, hpayload⟩ :=
    LifecyclePayload.completed_of_eventName hname
  have hduration : message.payload.payload.durationMs = some durationMs := by
    rw [hpayload]
    rfl
  obtain ⟨row, startedAt, completedAt, hrow, -, hstart, hend, htime⟩ := htells _ hduration
  exact ⟨row, startedAt, completedAt, hrow, hstart, hend, htime ▸ hduration⟩

end

theorem exists_lostStartAt_iff {x : String} {startedAt : Int} {h : WorkerHistory} :
    LostStartAt x startedAt h ↔ ∃ ev ∈ h, lostStart ev = some (x, startedAt) := by
  constructor
  · rintro ⟨t, r, hsaw, hlost⟩
    exact ⟨_, hsaw, lostStart_iff.mpr ⟨t, r, rfl, hlost⟩⟩
  · rintro ⟨ev, hev, hlost⟩
    obtain ⟨t, r, rfl, hstart⟩ := lostStart_iff.mp hlost
    exact ⟨t, r, hev, hstart⟩

/-- Whether the step completes no execution that the thread came too late to
start, or only one that was started at the same time. -/
def completesStoredStart (s : WorkerPool) : WorkerLabel → Bool
  | .act i ⟨.db (.transaction t), _⟩ =>
      (s.threads i).all fun th => th.history.all fun ev => (lostStart ev).all fun (x, startedAt) =>
        x ≠ t.id || (s.world.store.executions t.id).all fun row =>
          row.startedAt = some startedAt
  | _ => true

theorem completesStoredStart_sound {s : WorkerPool} {l : WorkerLabel}
    (h : completesStoredStart s l = true) : CompletesStoredStart s l := by
  rintro i th t reply output completedAt startedAt row rfl - - hth hlost hrow hrunning
  obtain ⟨ev, hev, hlost⟩ := exists_lostStartAt_iff.mp hlost
  simp only [completesStoredStart, hth, Option.all_some] at h
  have hstart := List.all_eq_true.mp h ev hev
  simpa [hlost, hrow, hrunning] using hstart

/-- The theorem after a lost race. Delivery 1 completes the execution, which
delivery 0 has started at the same time. -/
theorem completed_durationMs_raced :
    ∃ (_ : Runtime) (env : Environment) (s : WorkerPool) (message : OutboxMessage)
      (row : WorkflowExecutionRow) (startedAt completedAt : Int),
      ReachableUnder env CompletesStoredStart s
      ∧ (∃ th, s.threads 0 = some th ∧ th.prog.ended? = none)
      ∧ (∃ th, s.threads 1 = some th ∧ LostStart "execution" th.history ∧ th.prog = .pure ())
      ∧ message ∈ s.world.store.outbox ∧ message.eventName = .workflowExecutionCompleted
      ∧ s.world.store.executions message.payload.payload.executionId = some row
      ∧ row.startedAt = some startedAt ∧ row.completedAt = some completedAt
      ∧ message.payload.payload.durationMs = some (completedAt - startedAt) := by
  let _ : Runtime := .sample false
  obtain ⟨s, hs, hcheck⟩ := exists_reachable_of_checked defaultWorkflowDefinition 2
    (racedDeliveries 0) completesStoredStart (C := CompletesStoredStart)
    (fun _ _ _ _ _ _ _ _ _ => nofun) (fun _ _ _ => completesStoredStart_sound)
    (P := fun s => hasRaced s && s.world.store.outbox.any fun message =>
      message.eventName = .workflowExecutionCompleted) (by decide +kernel)
  obtain ⟨hraced, hcompleted⟩ := (Bool.and_eq_true _ _).mp hcheck
  obtain ⟨hopen, hlost⟩ := raced_of_hasRaced hraced
  obtain ⟨message, hmessage, hname⟩ := List.any_eq_true.mp hcompleted
  have hname := of_decide_eq_true hname
  obtain ⟨row, startedAt, completedAt, hrow, hstart, hend, hduration⟩ :=
    completed_durationMs _ s hs message hmessage hname
  exact ⟨_, _, s, message, row, startedAt, completedAt, hs, hopen, hlost, hmessage, hname, hrow,
    hstart, hend, hduration⟩

/-- The event tells another duration than the row of its execution. -/
def WrongDuration (s : Store) (payload : LifecyclePayload) : Prop :=
  ∃ row ∈ s.executions payload.executionId, ∃ startedAt ∈ row.startedAt,
    ∃ completedAt ∈ row.completedAt, ∃ durationMs ∈ payload.durationMs,
      durationMs ≠ completedAt - startedAt

instance (s : Store) (payload : LifecyclePayload) : Decidable (WrongDuration s payload) :=
  inferInstanceAs (Decidable (∃ row ∈ s.executions payload.executionId, _))

/-- Of two deliveries 0 starts the execution, at its own time, and 1, which
has lost the race with a later one, completes it. -/
theorem completed_durationMs_wrong :
    ∃ (_ : Runtime) (env : Environment) (s : WorkerPool), ReachableSystem env s
      ∧ ∃ message ∈ s.world.store.outbox, message.eventName = .workflowExecutionCompleted
        ∧ WrongDuration s.world.store message.payload.payload := by
  let _ : Runtime := .sample false
  obtain ⟨s, -, -, hs, -, hP⟩ := exists_run_of_turns defaultWorkflowDefinition
    (twoDeliveries ++ [.run 1 100 15 fun _ => true]) [] (fun _ => true) (C := fun _ _ => True)
    (fun _ => trivial) (fun _ _ _ => trivial)
    (P := fun _ s _ => s.world.store.outbox.any fun message =>
      message.eventName = .workflowExecutionCompleted
        ∧ WrongDuration s.world.store message.payload.payload) (by decide +kernel)
  obtain ⟨message, hmessage, hcheck⟩ := List.any_eq_true.mp hP
  exact ⟨_, _, s, hs, message, hmessage, of_decide_eq_true hcheck⟩

end FlowPilot
