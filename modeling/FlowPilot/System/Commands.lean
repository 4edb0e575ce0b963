import FlowPilot.System.Scripts

/-!
# Where the commands are

A command for an execution is in the commands queue, in a retry queue, or
with a delivery that has not been settled. `HasCopy` says that one is, and
it counts a delivery only while it has not sent its own retry copy: from
then on the copy stands for it. Every step passes such a copy on, unless it
finds that the execution has ended (`HasCopy.step`). The other way round,
what circulates is a copy of what did, or comes from outside
(`circulates_step`).
-/

namespace FlowPilot

open Prog hiding pure throw bind tryCatch

/-! ## Copies of a command -/

/-- The message is a command for the execution, in the eyes of the worker. -/
def CommandFor (x : String) (message : ConsumeMessage) : Prop :=
  ∃ m, parseWorkflowExecutionRequestedMessage message = some m ∧ m.executionId = x

theorem commandFor_of_content {x : String} {message : ConsumeMessage}
    {m : WorkflowExecutionRequestedMessage} (hx : m.executionId = x)
    (hcontent : message.content = .json m.value) : CommandFor x message :=
  ⟨m, parse_of_content hcontent, hx⟩

/-- The thread is a delivery of a command for the execution that has neither
been settled nor sent a retry copy. -/
def Holds (x : String) (th : WorkerThread) : Prop :=
  ∃ message, th.info = .delivery message ∧ CommandFor x message ∧ ¬ Settled th.history
    ∧ ¬ Published .retry th.history

/-- A message that is in a queue or was taken from one by a thread. -/
def Circulates (s : WorkerPool) (message : ConsumeMessage) : Prop :=
  message ∈ s.world.commands ∨ message ∈ s.world.retries
    ∨ ∃ t th, s.threads t = some th ∧ th.info = .delivery message

/-- A copy of a command for the execution is in a queue or held. -/
def HasCopy (x : String) (s : WorkerPool) : Prop :=
  (∃ message ∈ s.world.commands, CommandFor x message)
  ∨ (∃ message ∈ s.world.retries, CommandFor x message)
  ∨ ∃ t th, s.threads t = some th ∧ Holds x th

/-- The execution has ended. -/
def Ended (x : String) (s : Store) : Prop :=
  ∃ row, s.executions x = some row ∧ isTerminalExecutionStatus row.status = true

theorem Ended.mono {x : String} {s s' : Store} (h : Ended x s) (hs : s.Advances s') :
    Ended x s' := by
  obtain ⟨row, hrow, hterminal⟩ := h
  have hle := hs.rowLe x
  rw [hrow] at hle
  obtain ⟨later, hlater⟩ := hle.exists_later
  rw [hlater] at hle
  cases hle with
  | later _ _ _ hended => exact ⟨later, hlater, hended hterminal ▸ hterminal⟩

/-! ## Calls and the queues -/

/-- Nothing is lost from the queues. -/
structure World.Grows (w w' : World) : Prop where
  commands : w.commands ⊆ w'.commands
  retries : w.retries ⊆ w'.retries
  deadLetters : w.deadLetters ⊆ w'.deadLetters
  requested : w.requested = w'.requested

theorem World.Grows.refl (w : World) : w.Grows w :=
  ⟨List.Subset.refl _, List.Subset.refl _, List.Subset.refl _, rfl⟩

theorem World.take_grows (w : World) (p : Publication) : w.Grows (w.take p) := by
  unfold World.take
  split
  · exact ⟨List.subset_append_left _ _, List.Subset.refl _, List.Subset.refl _, rfl⟩
  · exact ⟨List.Subset.refl _, List.subset_append_left _ _, List.Subset.refl _, rfl⟩
  · exact ⟨List.Subset.refl _, List.Subset.refl _, List.subset_append_left _ _, rfl⟩
  · exact ⟨List.Subset.refl _, List.Subset.refl _, List.Subset.refl _, rfl⟩

theorem WorkerOp.run_grows {op : WorkerOp} {ctx : CallContext} {w w' : World} {r : op.Result}
    (h : op.run ctx w = some (r, w')) : w.Grows w' := by
  cases op with
  | newDate => cases h; exact .refl _
  | randomUUID => cases h; exact .refl _
  | db c =>
      obtain ⟨s, -, rfl⟩ := WorkerOp.run_db h
      exact ⟨List.Subset.refl _, List.Subset.refl _, List.Subset.refl _, rfl⟩
  | publish p =>
      cases h
      exact w.take_grows p
  | executeWorkflowNode node context => cases h; exact .refl _
  | ack message => cases h; exact .refl _
  | nack message allUpTo requeue =>
      cases h
      split
      · exact ⟨List.subset_append_left _ _, List.Subset.refl _, List.Subset.refl _, rfl⟩
      · exact .refl _

/-- No call takes anything from a queue. -/
theorem Environment.exec_grows {env : Environment} {op : WorkerOp} {w w' : World}
    {reply : Reply JsError op.Result} (h : env.exec op w reply w') : w.Grows w' := by
  rcases Environment.exec_cases h with ⟨rfl, -⟩ | ⟨ctx, r, hrun, -⟩
  · exact .refl _
  · exact WorkerOp.run_grows hrun

/-- A publication that took effect was taken by the broker. -/
theorem Environment.exec_publish {env : Environment} {p : Publication} {w w' : World}
    {reply : Reply JsError (WorkerOp.publish p).Result} (h : env.exec (.publish p) w reply w')
    (happlied : reply.applied = true) : w' = w.take p := by
  rcases Environment.exec_cases h with ⟨-, e, rfl, -⟩ | ⟨ctx, r, hrun, -⟩
  · cases happlied
  · cases hrun
    rfl

theorem published_append_singleton {exchange : FlowPilotExchange} {h : WorkerHistory}
    {ev : WorkerEvent} :
    Published exchange (h ++ [ev]) ↔ Published exchange h
      ∨ (ev.reply.applied = true ∧ ∃ p, ev.op = .publish p ∧ p.exchange = exchange) := by
  simp only [Published, List.mem_append, List.mem_singleton, or_and_right, exists_or,
    exists_eq_left]

section

variable [Runtime] {env : Environment} {C : WorkerPool → WorkerLabel → Prop}
  {s s' : WorkerPool} {l : WorkerLabel} {x : String}

/-- A publication to the retry exchange is a copy of the delivered command. -/
theorem DeliveryOp.retry_content {message : ConsumeMessage} {h : WorkerHistory}
    {p : Publication} (hop : DeliveryOp message h (.publish p)) (hp : p.exchange = .retry) :
    ∃ m, parseWorkflowExecutionRequestedMessage message = some m ∧ p.content = .json m.value := by
  cases hop with
  | node hop =>
      rcases hop with hop | ⟨_, _, he⟩
      · cases hp.symm.trans hop
      · cases he
  | retry hm _ hcontent => exact ⟨_, hm, hcontent⟩
  | deadLetter _ hdlx _ _ => cases hp.symm.trans hdlx
  | rawDeadLetter _ hdlx _ => cases hp.symm.trans hdlx

/-! ## Messages in circulation -/

omit [Runtime] in
theorem StartJob.mem_commands {message : ConsumeMessage} {w w' : World}
    (h : StartJob (.delivery message) w w') : message ∈ w.commands := by
  cases h with
  | delivery hsplit => simp [hsplit]

omit [Runtime] in
theorem mem_of_mem_removed {before after : List ConsumeMessage} {q removed : ConsumeMessage}
    (h : q ∈ before ++ after) : q ∈ before ++ removed :: after :=
  ((List.sublist_cons_self removed after).append_left before).subset h

omit [Runtime] in
theorem queued_of_append {commands retries : List ConsumeMessage} {added q : ConsumeMessage}
    (h : q ∈ commands ++ [added] ∨ q ∈ retries) : (q ∈ commands ∨ q ∈ retries) ∨ q = added := by
  rcases h with h | h
  · rcases List.mem_append.mp h with h | h
    · exact Or.inl (Or.inl h)
    · exact Or.inr (List.mem_singleton.mp h)
  · exact Or.inl (Or.inr h)

omit [Runtime] in
/-- The calls of the nodes put nothing in a queue of commands. -/
theorem nodeOp_queues {op : WorkerOp} {w w' : World} {reply : Reply JsError op.Result}
    (hop : NodeOp op) (hexec : env.exec op w reply w') :
    w'.commands = w.commands ∧ w'.retries = w.retries := by
  rcases Environment.exec_cases hexec with ⟨rfl, -⟩ | ⟨ctx, r, hrun, -⟩
  · exact ⟨rfl, rfl⟩
  rcases hop with hop | ⟨node, context, rfl⟩
  · cases op with
    | newDate => cases hrun; exact ⟨rfl, rfl⟩
    | randomUUID => cases hrun; exact ⟨rfl, rfl⟩
    | db c =>
        obtain ⟨s, -, rfl⟩ := WorkerOp.run_db hrun
        exact ⟨rfl, rfl⟩
    | publish p =>
        cases hrun
        have hevents : p.exchange = .events := hop
        simp [World.take, hevents]
    | executeWorkflowNode _ _ => exact hop.elim
    | ack _ => exact hop.elim
    | nack _ _ _ => exact hop.elim
  · cases hrun
    exact ⟨rfl, rfl⟩

/-- What a delivery puts in a queue of commands has the content of its own
message. -/
theorem delivery_queues {message : ConsumeMessage} {h : WorkerHistory} {op : WorkerOp}
    {w w' : World} {reply : Reply JsError op.Result} (hop : DeliveryOp message h op)
    (hexec : env.exec op w reply w') {q : ConsumeMessage}
    (hq : q ∈ w'.commands ∨ q ∈ w'.retries) :
    (q ∈ w.commands ∨ q ∈ w.retries) ∨ q.content = message.content := by
  rcases Environment.exec_cases hexec with ⟨rfl, -⟩ | ⟨ctx, r, hrun, -⟩
  · exact Or.inl hq
  have hdb : ∀ c, op = .db c → (q ∈ w.commands ∨ q ∈ w.retries) ∨ q.content = message.content := by
    rintro c rfl
    obtain ⟨s, -, rfl⟩ := WorkerOp.run_db hrun
    exact Or.inl hq
  cases hop with
  | node hop =>
      obtain ⟨hcommands, hretries⟩ := nodeOp_queues hop hexec
      rw [hcommands, hretries] at hq
      exact Or.inl hq
  | find _ => exact hdb _ rfl
  | transition _ _ _ => exact hdb _ rfl
  | resume _ _ _ _ => exact hdb _ rfl
  | @retry m p hm hexchange hcontent =>
      cases hrun
      simp only [World.take, hexchange, List.mem_append, List.mem_singleton] at hq
      rcases hq with hq | hq | rfl
      · exact Or.inl (Or.inl hq)
      · exact Or.inl (Or.inr hq)
      · exact Or.inr (hcontent.trans (content_of_parsed hm).symm)
  | @deadLetter m p _ hexchange _ _ =>
      cases hrun
      simp only [World.take, hexchange] at hq
      exact Or.inl hq
  | @rawDeadLetter p _ hexchange _ =>
      cases hrun
      simp only [World.take, hexchange] at hq
      exact Or.inl hq
  | ack _ _ =>
      cases hrun
      exact Or.inl hq
  | nack _ _ =>
      cases hrun
      rcases queued_of_append hq with hq | rfl
      · exact Or.inl hq
      · exact Or.inr rfl

/-- What the world itself puts in a queue of commands was there before, or
comes from outside: a foreign message, or a command the API publishes. -/
theorem envStep_queues {w w' : World} (h : EnvStep env w w') {q : ConsumeMessage}
    (hq : q ∈ w'.commands ∨ q ∈ w'.retries) :
    (∃ before, (before ∈ w.commands ∨ before ∈ w.retries) ∧ q.content = before.content)
    ∨ env.arrives q
    ∨ ∃ execution eventId occurredAt actorUserId,
      w.store.findExecution execution.id = some execution
      ∧ q.content = .json (requestCommand execution eventId occurredAt actorUserId).value := by
  cases h with
  | createExecution _ _ _ => exact Or.inl ⟨q, hq, rfl⟩
  | @requestExecution execution eventId occurredAt actorUserId hfound _ =>
      rcases queued_of_append hq with hq | rfl
      · exact Or.inl ⟨q, hq, rfl⟩
      · exact Or.inr (Or.inr ⟨execution, eventId, occurredAt, actorUserId, hfound, rfl⟩)
  | arrive harrives =>
      rcases queued_of_append hq with hq | rfl
      · exact Or.inl ⟨q, hq, rfl⟩
      · exact Or.inr (Or.inl harrives)
  | @retryExpires before after returned hsplit =>
      refine Or.inl ?_
      rcases queued_of_append hq with hq | rfl
      · exact ⟨q, hq.imp_right fun hq => by rw [hsplit]; exact mem_of_mem_removed hq, rfl⟩
      · exact ⟨returned, Or.inr (by simp [hsplit]), rfl⟩

/-- A message in circulation after a step has the content of one that was
before, or it has just come from outside. -/
theorem circulates_step (hr : Reached s) (hs : Pool.Step (workerSystem env) s l s')
    {message : ConsumeMessage} (h : Circulates s' message) :
    (∃ before, Circulates s before ∧ message.content = before.content)
    ∨ env.arrives message
    ∨ ∃ execution eventId occurredAt actorUserId,
      s.world.store.findExecution execution.id = some execution
      ∧ message.content
        = .json (requestCommand execution eventId occurredAt actorUserId).value := by
  have hkept : Circulates s message →
      ∃ before, Circulates s before ∧ message.content = before.content :=
    fun h => ⟨message, h, rfl⟩
  rcases or_assoc.mpr h with hqueued | ⟨t, th, hth, hinfo⟩
  · cases hs with
    | @act w w' threads t info history op k reply hth hexec =>
        have hop := (hr.conform t _ hth).rest.1
        refine Or.inl ?_
        cases info with
        | delivery taken =>
            rcases delivery_queues hop hexec hqueued with hold | hcontent
            · exact hkept (or_assoc.mp (Or.inl hold))
            · exact ⟨taken, Or.inr (Or.inr ⟨t, _, hth, rfl⟩), hcontent⟩
        | outboxDispatcher =>
            obtain ⟨hcommands, hretries⟩ := nodeOp_queues (Or.inl hop) hexec
            dsimp only at hqueued
            rw [hcommands, hretries] at hqueued
            exact hkept (or_assoc.mp (Or.inl hqueued))
    | spawn _ hspawn =>
        refine Or.inl (hkept (or_assoc.mp (Or.inl ?_)))
        cases hspawn with
        | @delivery _ before after taken hsplit =>
            rw [hsplit]
            exact hqueued.imp_left mem_of_mem_removed
        | outboxDispatcher => exact hqueued
    | @stop w w' threads t th hth hstop =>
        obtain ⟨info, history, p⟩ := th
        refine Or.inl (hkept ?_)
        cases hstop with
        | requeue _ =>
            rcases queued_of_append hqueued with hq | rfl
            · exact or_assoc.mp (Or.inl hq)
            · exact Or.inr (Or.inr ⟨t, _, hth, rfl⟩)
        | settled _ => exact or_assoc.mp (Or.inl hqueued)
        | outboxDispatcher => exact or_assoc.mp (Or.inl hqueued)
    | env henv =>
        rcases envStep_queues henv hqueued with ⟨before, hbefore, hcontent⟩ | houtside
        · exact Or.inl ⟨before, or_assoc.mp (Or.inl hbefore), hcontent⟩
        · exact Or.inr houtside
  · rcases hs.thread_cases hth with
      hold | ⟨info, -, hspawn, rfl⟩ | ⟨info, history, op, k, reply, -, hold, -, rfl⟩
    · exact Or.inl (hkept (Or.inr (Or.inr ⟨t, th, hold, hinfo⟩)))
    · dsimp only at hinfo
      subst hinfo
      exact Or.inl (hkept (Or.inl hspawn.mem_commands))
    · exact Or.inl (hkept (Or.inr (Or.inr ⟨t, _, hold, hinfo⟩)))

/-! ## Passing the copy on -/

/-- A call of the thread that holds a copy: it still holds it, or the copy
is in a queue again, or the execution has ended. -/
theorem Holds.call {t : Nat} {info : Job} {h : WorkerHistory} {op : WorkerOp}
    {k : Except JsError op.Result → Worker Unit} {reply : Reply JsError op.Result}
    (hr : Reached s) (hth : s.threads t = some ⟨info, h, .call op k⟩)
    (hholds : Holds x ⟨info, h, .call op k⟩) (hexec : env.exec op s.world reply s'.world)
    (hth' : s'.threads t = some ⟨info, h ++ [⟨op, reply⟩], k reply.result⟩) :
    HasCopy x s' ∨ Ended x s.world.store := by
  obtain ⟨message, hinfo, hcommand, hunsettled, hunpublished⟩ := hholds
  dsimp only at hinfo hunsettled hunpublished
  subst hinfo
  have hop := hr.deliveryOp hth
  by_cases hpublished : Published .retry (h ++ [⟨op, reply⟩])
  · -- the retry copy stands for the delivery now
    refine Or.inl (Or.inr (Or.inl ?_))
    obtain ⟨happlied, p, rfl, hexchange⟩ :=
      (published_append_singleton.mp hpublished).resolve_left hunpublished
    obtain ⟨m, hm, hcontent⟩ := hop.retry_content hexchange
    obtain ⟨m', hm', hx⟩ := hcommand
    obtain rfl := Option.some.inj (hm.symm.trans hm')
    refine ⟨p.toMessage, ?_, commandFor_of_content hx hcontent⟩
    rw [Environment.exec_publish hexec happlied]
    simp [World.take, hexchange]
  · by_cases hsettled : Settled (h ++ [⟨op, reply⟩])
    · have hsettles : op.Settles := by
        obtain ⟨ev, hev, hsettles⟩ := (settled_append.mp hsettled).resolve_left hunsettled
        rw [List.mem_singleton.mp hev] at hsettles
        exact hsettles
      cases hop with
      | node hop => exact absurd hsettles (nodeOp_not_settles hop)
      | find _ => exact hsettles.elim
      | transition _ _ _ => exact hsettles.elim
      | resume _ _ _ _ => exact hsettles.elim
      | retry _ _ _ => exact hsettles.elim
      | deadLetter _ _ _ _ => exact hsettles.elim
      | rawDeadLetter _ _ _ => exact hsettles.elim
      | ack _ hack =>
          obtain ⟨m, hm, rfl⟩ := hcommand
          rcases (hack m hm).1 with hseen | hretry
          · exact Or.inr ((hr.histories t _ hth).ended hseen)
          · exact absurd hretry hunpublished
      | nack _ _ =>
          obtain ⟨r, rfl⟩ := Environment.exec_infallible hexec trivial
          obtain ⟨-, ctx, hrun⟩ := hexec
          obtain ⟨-, hw⟩ := Prod.mk.inj (Option.some.inj hrun)
          refine Or.inl (Or.inl ⟨message, ?_, hcommand⟩)
          rw [← hw]
          simp
    · exact Or.inl (Or.inr (Or.inr ⟨t, _, hth', message, rfl, hcommand, hsettled, hpublished⟩))

/-- A command in the commands queue stays there, or a delivery takes it. -/
theorem commands_step (hs : Pool.Step (workerSystem env) s l s') {message : ConsumeMessage}
    (hmem : message ∈ s.world.commands) :
    message ∈ s'.world.commands
    ∨ ∃ t, s'.threads t = some ⟨.delivery message, [], handleDelivery message⟩ := by
  cases hs with
  | act _ hexec => exact Or.inl ((Environment.exec_grows hexec).commands hmem)
  | @spawn w w' threads t info _ hspawn =>
      cases hspawn with
      | @delivery _ before after taken hsplit =>
          rw [hsplit] at hmem
          rcases List.mem_append.mp hmem with hbefore | hafter
          · exact Or.inl (List.mem_append_left _ hbefore)
          · rcases List.mem_cons.mp hafter with rfl | hafter
            · exact Or.inr ⟨t, Function.update_self ..⟩
            · exact Or.inl (List.mem_append_right _ hafter)
      | outboxDispatcher => exact Or.inl hmem
  | @stop w w' threads t th _ hstop =>
      obtain ⟨info, h, p⟩ := th
      cases hstop with
      | requeue _ => exact Or.inl (List.mem_append_left _ hmem)
      | settled _ => exact Or.inl hmem
      | outboxDispatcher => exact Or.inl hmem
  | env henv =>
      cases henv with
      | createExecution _ _ _ => exact Or.inl hmem
      | requestExecution _ _ _ _ _ => exact Or.inl ((World.take_grows _ _).commands hmem)
      | arrive _ => exact Or.inl (List.mem_append_left _ hmem)
      | retryExpires _ => exact Or.inl (List.mem_append_left _ hmem)

/-- A message in a retry queue stays there, or returns to the commands queue
with its content unchanged. -/
theorem retries_step (hs : Pool.Step (workerSystem env) s l s') {message : ConsumeMessage}
    (hmem : message ∈ s.world.retries) :
    message ∈ s'.world.retries
    ∨ ∃ message' ∈ s'.world.commands, message'.content = message.content := by
  rcases workerStep_cases hs with
    ⟨_, _, _, _, _, _, -, -, hexec, -⟩ | ⟨rfl, -⟩ | ⟨-, commands, hworld⟩
  · exact Or.inl ((Environment.exec_grows hexec).retries hmem)
  · cases hs with
    | env henv =>
        cases henv with
        | createExecution _ _ _ => exact Or.inl hmem
        | requestExecution _ _ _ _ _ => exact Or.inl ((World.take_grows _ _).retries hmem)
        | arrive _ => exact Or.inl hmem
        | @retryExpires before after returned hsplit =>
            rw [hsplit] at hmem
            rcases List.mem_append.mp hmem with hbefore | hafter
            · exact Or.inl (List.mem_append_left _ hbefore)
            · rcases List.mem_cons.mp hafter with rfl | hafter
              · exact Or.inr ⟨_, List.mem_append_right _ (List.mem_singleton_self _), rfl⟩
              · exact Or.inl (List.mem_append_right _ hafter)
  · rw [hworld]
    exact Or.inl hmem

omit [Runtime] in
theorem CommandFor.of_content {message message' : ConsumeMessage} (h : CommandFor x message)
    (hcontent : message'.content = message.content) : CommandFor x message' := by
  obtain ⟨m, hm, hx⟩ := h
  exact commandFor_of_content hx (hcontent.trans (content_of_parsed hm))

/-- Every step passes a copy on, or finds the execution ended. -/
theorem HasCopy.step (hr : Reached s) (hs : Pool.Step (workerSystem env) s l s')
    (h : HasCopy x s) : HasCopy x s' ∨ Ended x s'.world.store := by
  rcases h with ⟨message, hmem, hcommand⟩ | ⟨message, hmem, hcommand⟩ | ⟨t, th, hth, hholds⟩
  · rcases commands_step hs hmem with hmem' | ⟨t, hth⟩
    · exact Or.inl (Or.inl ⟨message, hmem', hcommand⟩)
    · exact Or.inl (Or.inr (Or.inr ⟨t, _, hth, message, rfl, hcommand, by simp [Settled],
        by simp [Published]⟩))
  · rcases retries_step hs hmem with hmem' | ⟨message', hmem', hcontent⟩
    · exact Or.inl (Or.inr (Or.inl ⟨message, hmem', hcommand⟩))
    · exact Or.inl (Or.inl ⟨message', hmem', hcommand.of_content hcontent⟩)
  · rcases hs.keeps_thread hth with
      hth' | ⟨-, hstop⟩ | ⟨op, k, reply, -, hprog, hexec, hth'⟩
    · exact Or.inl (Or.inr (Or.inr ⟨t, th, hth', hholds⟩))
    · obtain ⟨message, hinfo, hcommand, hunsettled, -⟩ := hholds
      rw [hinfo] at hstop
      refine Or.inl (Or.inl ⟨message, ?_, hcommand⟩)
      generalize s.world = w at hstop
      generalize s'.world = w' at hstop
      cases hstop with
      | requeue _ => exact List.mem_append_right _ (List.mem_singleton_self _)
      | settled hsettled => exact absurd hsettled hunsettled
    · obtain ⟨info, history, prog⟩ := th
      dsimp only at hprog
      subst hprog
      rcases Holds.call hr hth hholds hexec hth' with hcopy | hended
      · exact Or.inl hcopy
      · exact Or.inr (hended.mono (hr.advances hs))

/-! ## No stranded execution -/

/-- A request leaves a copy in the commands queue. -/
theorem requested_step (hs : Pool.Step (workerSystem env) s l s')
    (hx : x ∈ s'.world.requested) : x ∈ s.world.requested ∨ HasCopy x s' := by
  rcases workerStep_cases hs with
    ⟨_, _, _, _, _, _, -, -, hexec, -⟩ | ⟨rfl, -⟩ | ⟨-, commands, hworld⟩
  · exact Or.inl ((Environment.exec_grows hexec).requested ▸ hx)
  · cases hs with
    | env henv =>
        cases henv with
        | createExecution _ _ _ => exact Or.inl hx
        | @requestExecution execution eventId occurredAt actorUserId hfound hnew =>
            rcases List.mem_append.mp hx with hold | hnow
            · exact Or.inl hold
            · obtain rfl := List.mem_singleton.mp hnow
              refine Or.inr (Or.inl ⟨_, List.mem_append_right _ (List.mem_singleton_self _), ?_⟩)
              exact commandFor_of_content rfl rfl
        | arrive _ => exact Or.inl hx
        | retryExpires _ => exact Or.inl hx
  · rw [hworld] at hx
    exact Or.inl hx

/-- A requested execution has a copy of its command, until it ends. -/
theorem ReachableUnder.hasCopy (h : ReachableUnder env C s) :
    ∀ x ∈ s.world.requested, HasCopy x s ∨ Ended x s.world.store := by
  induction h with
  | start hw =>
      subst hw
      exact fun x hx => absurd hx List.not_mem_nil
  | step hreach _ hs ih =>
      have hr := ReachableUnder.reached hreach
      intro x hx
      rcases requested_step hs hx with hold | hnew
      · rcases ih x hold with hcopy | hended
        · exact hcopy.step hr hs
        · exact Or.inr (hended.mono (hr.advances hs))
      · exact Or.inl hnew

/-- A thread acknowledges or gives back at most once. -/
theorem Reached.settles_once (hr : Reached s) {t : Nat} {th : WorkerThread}
    (hth : s.threads t = some th) {before after : WorkerHistory} {ev : WorkerEvent}
    (hsplit : th.history = before ++ ev :: after) (hsettles : ev.op.Settles) :
    ¬ Settled before ∧ ¬ Settled after := by
  have hfresh : ∀ {before ev after}, th.history = before ++ ev :: after → ev.op.Settles →
      ¬ Settled before := by
    intro before ev after hsplit hsettles
    have hpast := (hr.conform t th hth).past
    rw [hsplit] at hpast
    have hop := (along_append.mp hpast).2.1.1
    obtain ⟨info, history, prog⟩ := th
    cases info with
    | delivery message =>
        cases ev
        cases hop with
        | node hop => exact absurd hsettles (nodeOp_not_settles hop)
        | ack hunsettled _ => exact hunsettled
        | nack hunsettled _ => exact hunsettled
        | _ => exact hsettles.elim
    | outboxDispatcher => exact absurd hsettles (nodeOp_not_settles (Or.inl hop))
  refine ⟨hfresh hsplit hsettles, ?_⟩
  rintro ⟨ev', hmem, hsettles'⟩
  obtain ⟨first, rest, rfl⟩ := List.append_of_mem hmem
  have hsplit' : th.history = (before ++ ev :: first) ++ ev' :: rest := by simpa using hsplit
  exact hfresh hsplit' hsettles' ⟨ev, by simp, hsettles⟩

/-- No execution is stranded: as long as a requested execution has not
ended, a command for it is in the commands queue, in a retry queue or with an
unsettled delivery. And no delivery is settled twice. -/
theorem no_stranded_execution (env : Environment) (s : WorkerPool)
    (h : ReachableSystem env s) :
    (∀ x ∈ s.world.requested, ∀ row, s.world.store.executions x = some row →
      row.status = .pending ∨ row.status = .running →
      (∃ message ∈ s.world.commands, CommandFor x message)
      ∨ (∃ message ∈ s.world.retries, CommandFor x message)
      ∨ ∃ t th message, s.threads t = some th ∧ th.info = .delivery message
        ∧ CommandFor x message ∧ ¬ Settled th.history)
    ∧ ∀ t th, s.threads t = some th → ∀ before ev after, th.history = before ++ ev :: after →
      ev.op.Settles → ¬ Settled before ∧ ¬ Settled after := by
  refine ⟨fun x hx row hrow hstatus => ?_, fun t th hth before ev after hsplit hsettles =>
    (ReachableUnder.reached h).settles_once hth hsplit hsettles⟩
  rcases ReachableUnder.hasCopy h x hx with hcopy | ⟨row', hrow', hterminal⟩
  · rcases hcopy with hqueued | hwaiting | ⟨t, th, hth, message, hinfo, hcommand, hunsettled, -⟩
    · exact Or.inl hqueued
    · exact Or.inr (Or.inl hwaiting)
    · exact Or.inr (Or.inr ⟨t, th, message, hth, hinfo, hcommand, hunsettled⟩)
  · obtain rfl := Option.some.inj (hrow.symm.trans hrow')
    rcases hstatus with hstatus | hstatus
    · rw [hstatus] at hterminal
      cases hterminal
    · rw [hstatus] at hterminal
      cases hterminal

end

/-- The theorem while the command of a running execution is handled. -/
theorem no_stranded_execution_running :
    ∃ (_ : Runtime) (s : WorkerPool) (row : WorkflowExecutionRow),
      ReachableSystem (scriptEnvironment (newRow defaultWorkflowDefinition)) s
      ∧ s.world.store.executions "execution" = some row ∧ row.status = .running
      ∧ ((∃ message ∈ s.world.commands, CommandFor "execution" message)
        ∨ (∃ message ∈ s.world.retries, CommandFor "execution" message)
        ∨ ∃ t th message, s.threads t = some th ∧ th.info = .delivery message
          ∧ CommandFor "execution" message ∧ ¬ Settled th.history) := by
  let _ : Runtime := .sample false
  obtain ⟨s, k, message, events, q, hs, -, hcheck, -⟩ :=
    exists_reachable_of_serve defaultWorkflowDefinition [] (fun _ => true) 10
      (P := fun _ _ w => w.hasStatus "execution" .running && w.requested.contains "execution")
      (by decide +kernel)
  obtain ⟨hrunning, hrequested⟩ := (Bool.and_eq_true _ _).mp hcheck
  obtain ⟨row, hrow, hstatus⟩ := World.hasStatus_iff.mp hrunning
  obtain ⟨hcopy, -⟩ := no_stranded_execution (scriptEnvironment _) s hs.system
  exact ⟨_, s, row, hs.system, hrow, hstatus,
    hcopy "execution" (List.contains_iff_mem.mp hrequested) row hrow (Or.inr hstatus)⟩

end FlowPilot
