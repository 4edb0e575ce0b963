import FlowPilot.Lib.Table
import FlowPilot.System.Turns
import FlowPilot.Worker.OutboxDiscipline

/-!
# The rows of the outbox

How one row of the outbox changes in a run with any number of dispatchers. A
dispatcher works on a snapshot (`RowSeen`), the row as an earlier call
answered with it. What makes the invariants inductive is a statement about
snapshots: the row is still there with the same event (`SameEvent`), and the
snapshot has the shape every row has (`RowSound`).
-/

namespace FlowPilot

open Prog hiding pure throw bind tryCatch

/-! ## Calls and the outbox -/

/-- What a call does to the outbox. -/
inductive OutboxEffect (op : WorkerOp) (applied : Bool) (outbox : List OutboxMessage) :
    List OutboxMessage → Prop
  | same : (applied = true → ∀ id data, op ≠ .db (.updateOutbox id data)) →
      OutboxEffect op applied outbox outbox
  | stored {ctx : DbContext} {routingKey : FlowPilotRoutingKey}
      {message : WorkflowLifecycleMessage} :
      Stores op message → (∀ row ∈ outbox, row.idempotencyKey ≠ message.idempotencyKey) →
      (∀ row ∈ outbox, row.id ≠ ctx.uuid) →
      OutboxEffect op applied outbox (outbox ++ [Store.newOutboxMessage ctx routingKey message])
  | updated {id : String} {data : OutboxUpdate} :
      op = .db (.updateOutbox id data) → applied = true →
      OutboxEffect op applied outbox
        (outbox.map fun row => if row.id = id then data.apply row else row)

theorem upsertOutbox_effect {op : WorkerOp} {applied : Bool} {s s' : Store} {ctx : DbContext}
    {routingKey : FlowPilotRoutingKey} {message : WorkflowLifecycleMessage}
    {row : OutboxMessage} (h : s.upsertOutbox ctx routingKey message = some (row, s'))
    (hop : Stores op message) : OutboxEffect op applied s.outbox s'.outbox ∧ row ∈ s'.outbox := by
  have hother : ∀ id data, op ≠ .db (.updateOutbox id data) := by
    rintro id data rfl
    cases hop
  rcases Store.upsertOutbox_cases h with ⟨rfl, hmem, -⟩ | ⟨rfl, rfl, hkey, hid⟩
  · exact ⟨.same fun _ => hother, hmem⟩
  · exact ⟨.stored hop hkey hid, List.mem_append_right _ (List.mem_singleton_self _)⟩

theorem dbCall_outboxEffect {c : DbCall} {ctx : DbContext} {s s' : Store} {r : c.Result}
    (h : c.run ctx s = some (r, s')) :
    OutboxEffect (.db c) true s.outbox s'.outbox
    ∧ ∀ row, AnswersRow ⟨.db c, .ok r⟩ row → row ∈ s'.outbox := by
  cases c with
  | transaction t =>
      rcases runTransaction_cases h with ⟨rfl, rfl, -⟩ | ⟨row, outboxRow, -, -, rfl, hupsert⟩
      · exact ⟨.same (by simp), fun row hrow => by cases hrow⟩
      · obtain ⟨heffect, hmem⟩ := upsertOutbox_effect hupsert (.transaction t)
        exact ⟨heffect, fun row hrow => Option.some.inj hrow ▸ hmem⟩
  | upsertOutbox routingKey message =>
      obtain ⟨heffect, hmem⟩ := upsertOutbox_effect h (.upsert routingKey message)
      exact ⟨heffect, fun row hrow => hrow ▸ hmem⟩
  | updateOutbox id data =>
      rw [DbCall.run_updateOutbox h]
      exact ⟨.updated rfl rfl, fun _ => False.elim⟩
  | findOutbox filter take =>
      obtain ⟨rfl, rfl⟩ := Prod.mk.inj (Option.some.inj h)
      refine ⟨.same (by simp), fun row hrow => ?_⟩
      have hsub : ∀ row ∈ Store.orderByCreatedAt ctx (s.outbox.filter filter.matches),
          row ∈ s.outbox := fun row hrow =>
        List.mem_of_mem_filter ((List.mem_insertionSort _).mp hrow)
      cases take with
      | none => exact hsub row hrow
      | some n => exact hsub row (List.mem_of_mem_take hrow)
  | _ =>
      rw [(DbCall.run_frame h fun hwrites => hwrites).2]
      exact ⟨.same (by simp), fun _ => False.elim⟩

/-- Every call against the world has such an effect; and a row in its answer
is a row of the outbox. -/
theorem run_outboxEffect {op : WorkerOp} {ctx : CallContext} {w w' : World} {r : op.Result}
    (h : op.run ctx w = some (r, w')) :
    OutboxEffect op true w.store.outbox w'.store.outbox
    ∧ ∀ row, AnswersRow ⟨op, .ok r⟩ row → row ∈ w'.store.outbox := by
  cases op with
  | db c =>
      obtain ⟨s, hrun, rfl⟩ := WorkerOp.run_db h
      exact dbCall_outboxEffect hrun
  | _ =>
      rw [WorkerOp.run_store h (by simp)]
      exact ⟨.same (by simp), fun _ => False.elim⟩

theorem not_answersRow_lost {op : WorkerOp} {e : JsError} {row : OutboxMessage} :
    ¬ AnswersRow ⟨op, .lost e⟩ row := by
  cases op with
  | db c => cases c <;> exact fun h => h
  | _ => exact fun h => h

theorem not_answersRow_failed {op : WorkerOp} {e : JsError} {row : OutboxMessage} :
    ¬ AnswersRow ⟨op, .failed e⟩ row := by
  cases op with
  | db c => cases c <;> exact fun h => h
  | _ => exact fun h => h

theorem exec_outboxEffect {env : Environment} {op : WorkerOp} {w w' : World}
    {reply : Reply JsError op.Result} (h : env.exec op w reply w') :
    OutboxEffect op reply.applied w.store.outbox w'.store.outbox
    ∧ ∀ row, AnswersRow ⟨op, reply⟩ row → row ∈ w'.store.outbox := by
  rcases Environment.exec_cases h with ⟨rfl, e, rfl, -⟩ | ⟨ctx, r, hrun, ⟨rfl, -⟩ | ⟨e, rfl, -⟩⟩
  · exact ⟨.same (by simp [Reply.applied]), fun row hrow => absurd hrow not_answersRow_failed⟩
  · exact run_outboxEffect hrun
  · exact ⟨(run_outboxEffect hrun).1, fun row hrow => absurd hrow not_answersRow_lost⟩

/-! ## Identity of rows -/

/-- No two rows share their id or their key. -/
structure UniqueRows (outbox : List OutboxMessage) : Prop where
  ids : (outbox.map (·.id)).Nodup
  keys : (outbox.map (·.idempotencyKey)).Nodup

theorem UniqueRows.eq_of_id {outbox : List OutboxMessage} (h : UniqueRows outbox)
    {row row' : OutboxMessage} (hrow : row ∈ outbox) (hrow' : row' ∈ outbox)
    (hid : row.id = row'.id) : row = row' :=
  List.inj_on_of_nodup_map h.ids hrow hrow' hid

theorem UniqueRows.eq_of_key {outbox : List OutboxMessage} (h : UniqueRows outbox)
    {row row' : OutboxMessage} (hrow : row ∈ outbox) (hrow' : row' ∈ outbox)
    (hkey : row.idempotencyKey = row'.idempotencyKey) : row = row' :=
  List.inj_on_of_nodup_map h.keys hrow hrow' hkey

@[simp] theorem OutboxUpdate.apply_id (data : OutboxUpdate) (row : OutboxMessage) :
    (data.apply row).id = row.id := by
  cases data <;> rfl

theorem OutboxEffect.unique {op : WorkerOp} {applied : Bool} {outbox outbox' : List OutboxMessage}
    (heffect : OutboxEffect op applied outbox outbox') (h : UniqueRows outbox) :
    UniqueRows outbox' := by
  cases heffect with
  | same => exact h
  | stored _ hkey hid => exact ⟨Table.nodup_insert h.ids hid, Table.nodup_insert h.keys hkey⟩
  | @updated id data _ _ =>
      refine ⟨?_, ?_⟩
      · rw [Table.map_update data.apply_id]
        exact h.ids
      · rw [Table.map_update data.apply_idempotencyKey]
        exact h.keys

/-- A row after a call: as before, or updated. -/
theorem OutboxEffect.row {op : WorkerOp} {applied : Bool} {outbox outbox' : List OutboxMessage}
    (heffect : OutboxEffect op applied outbox outbox') {row : OutboxMessage}
    (hrow : row ∈ outbox) :
    (row ∈ outbox' ∧ ∀ data, op = .db (.updateOutbox row.id data) → applied = false)
    ∨ ∃ data, op = .db (.updateOutbox row.id data) ∧ applied = true
      ∧ data.apply row ∈ outbox' := by
  cases heffect with
  | same hother =>
      refine Or.inl ⟨hrow, fun data hop => ?_⟩
      rw [← Bool.not_eq_true]
      exact fun happlied => hother happlied _ _ hop
  | stored hstores _ _ =>
      refine Or.inl ⟨List.mem_append_left _ hrow, ?_⟩
      rintro data rfl
      cases hstores
  | @updated id data hop happlied =>
      by_cases hid : row.id = id
      · subst hid
        exact Or.inr ⟨data, hop, happlied, Table.mem_update.mpr (Or.inr ⟨row, hrow, rfl, rfl⟩)⟩
      · refine Or.inl ⟨Table.mem_update.mpr (Or.inl ⟨hrow, hid⟩), fun data' hop' => ?_⟩
        cases hop.symm.trans hop'
        exact absurd rfl hid

/-- Where a row after a call comes from. -/
theorem OutboxEffect.origin {op : WorkerOp} {applied : Bool}
    {outbox outbox' : List OutboxMessage} (heffect : OutboxEffect op applied outbox outbox')
    {row' : OutboxMessage} (hrow' : row' ∈ outbox') :
    row' ∈ outbox
    ∨ (∃ ctx routingKey message, Stores op message
      ∧ row' = Store.newOutboxMessage ctx routingKey message)
    ∨ ∃ row ∈ outbox, ∃ data, op = .db (.updateOutbox row.id data) ∧ applied = true
      ∧ row' = data.apply row := by
  cases heffect with
  | same => exact Or.inl hrow'
  | stored hstores _ _ =>
      rcases List.mem_append.mp hrow' with hrow' | hrow'
      · exact Or.inl hrow'
      · exact Or.inr (Or.inl ⟨_, _, _, hstores, List.mem_singleton.mp hrow'⟩)
  | @updated id data hop happlied =>
      rcases Table.mem_update.mp hrow' with ⟨hrow', -⟩ | ⟨row, hrow, rfl, rfl⟩
      · exact Or.inl hrow'
      · exact Or.inr (Or.inr ⟨row, hrow, data, hop, happlied, rfl⟩)

/-- The later row differs in status, attempts, last error and time of
publishing only. -/
def SameEvent (row later : OutboxMessage) : Prop :=
  later = { row with
    status := later.status, attempts := later.attempts, lastError := later.lastError
    publishedAt := later.publishedAt }

theorem SameEvent.refl (row : OutboxMessage) : SameEvent row row := rfl

theorem SameEvent.apply {row current : OutboxMessage} (h : SameEvent row current)
    (data : OutboxUpdate) : SameEvent row (data.apply current) := by
  unfold SameEvent at h
  rw [h]
  cases data <;> rfl

theorem SameEvent.id_eq {row current : OutboxMessage} (h : SameEvent row current) :
    current.id = row.id := by
  rw [h]

theorem SameEvent.payload_eq {row current : OutboxMessage} (h : SameEvent row current) :
    current.payload = row.payload := by
  rw [h]

/-- The row is published the same way. -/
theorem SameEvent.publication {row current : OutboxMessage} (h : SameEvent row current)
    (now : Int) : outboxPublication current now = outboxPublication row now := by
  rw [h]
  rfl

/-! ## Steps -/

theorem World.take_events (w : World) (p : Publication) :
    (w.take p).events = w.events
    ∨ (p.exchange = .events ∧ (w.take p).events = w.events ++ [p]) := by
  unfold World.take
  split
  · exact Or.inl rfl
  · exact Or.inl rfl
  · exact Or.inl rfl
  · rename_i hp
    exact Or.inr ⟨hp, rfl⟩

section

variable [Runtime] {env : Environment} {C : WorkerPool → WorkerLabel → Prop} {s s' : WorkerPool}
  {l : WorkerLabel}

/-- The step is a call that records a dispatch of the row with this id, and
takes effect. -/
def RecordsDispatchOf (id : String) : WorkerLabel → Bool
  | .act _ ⟨.db (.updateOutbox id' _), reply⟩ => id' = id && reply.applied
  | _ => false

omit [Runtime] in
theorem recordsDispatchOf_eq_false {id : String} {t : Nat} {op : WorkerOp}
    {reply : Reply JsError op.Result} :
    RecordsDispatchOf id (.act t ⟨op, reply⟩) = false
      ↔ ∀ data, op = .db (.updateOutbox id data) → reply.applied = false := by
  unfold RecordsDispatchOf
  split
  · rename_i id' data reply' heq
    cases heq
    by_cases hid : id' = id
    · simp [hid]
    · simp [hid]
  · rename_i hother
    exact ⟨fun _ data hop => by subst hop; exact absurd rfl (hother _ _ _ _), fun _ => rfl⟩

/-- Only a call changes the outbox. -/
theorem outboxEffect_of_step (hs : Pool.Step (workerSystem env) s l s') :
    (s'.world.store.outbox = s.world.store.outbox ∧ ∀ t ev, l ≠ .act t ev)
    ∨ ∃ t op reply, l = .act t ⟨op, reply⟩
      ∧ OutboxEffect op reply.applied s.world.store.outbox s'.world.store.outbox := by
  rcases tables_of_step hs with ⟨t, op, reply, rfl, hexec⟩ | ⟨hl, houtbox, -⟩
  · exact Or.inr ⟨t, op, reply, rfl, (exec_outboxEffect hexec).1⟩
  · exact Or.inl ⟨houtbox, hl⟩

theorem ReachableUnder.uniqueRows (h : ReachableUnder env C s) :
    UniqueRows s.world.store.outbox := by
  induction h with
  | start hw =>
      subst hw
      exact ⟨List.nodup_nil, List.nodup_nil⟩
  | step _ _ hs ih =>
      rcases outboxEffect_of_step hs with ⟨heq, -⟩ | ⟨_, _, _, -, heffect⟩
      · rw [heq]
        exact ih
      · exact heffect.unique ih

/-- A row after a step: as before, or with a dispatch recorded. -/
theorem outboxRow_of_step (hs : Pool.Step (workerSystem env) s l s') {row : OutboxMessage}
    (hrow : row ∈ s.world.store.outbox) :
    (row ∈ s'.world.store.outbox ∧ RecordsDispatchOf row.id l = false)
    ∨ ∃ t data reply, l = .act t ⟨.db (.updateOutbox row.id data), reply⟩
      ∧ reply.applied = true ∧ data.apply row ∈ s'.world.store.outbox := by
  rcases outboxEffect_of_step hs with ⟨heq, hl⟩ | ⟨t, op, reply, rfl, heffect⟩
  · refine Or.inl ⟨heq ▸ hrow, ?_⟩
    unfold RecordsDispatchOf
    split
    · exact absurd rfl (hl _ _)
    · rfl
  · rcases heffect.row hrow with ⟨hkept, hother⟩ | ⟨data, rfl, happlied, hmem⟩
    · exact Or.inl ⟨hkept, recordsDispatchOf_eq_false.mpr hother⟩
    · exact Or.inr ⟨t, data, reply, rfl, happlied, hmem⟩

/-! ## Snapshots -/

/-- Every snapshot of a thread is related to a row that is there now. -/
def Snapshots (R : OutboxMessage → OutboxMessage → Prop) (s : WorkerPool) : Prop :=
  ∀ t th, s.threads t = some th → ∀ row, RowSeen th.history row →
    ∃ current ∈ s.world.store.outbox, R row current

/-- Snapshots stay related, when the recording of a dispatch keeps the
relation. -/
theorem Snapshots.step {R : OutboxMessage → OutboxMessage → Prop} (h : Snapshots R s)
    (hs : Pool.Step (workerSystem env) s l s') (hrefl : ∀ row, R row row)
    (happly : ∀ row current t data reply, current ∈ s.world.store.outbox →
      l = .act t ⟨.db (.updateOutbox current.id data), reply⟩ → reply.applied = true →
      R row current → R row (data.apply current)) : Snapshots R s' := by
  have hlater : ∀ row, (∃ current ∈ s.world.store.outbox, R row current) →
      ∃ current ∈ s'.world.store.outbox, R row current := by
    rintro row ⟨current, hmem, hR⟩
    rcases outboxRow_of_step hs hmem with ⟨hkept, -⟩ | ⟨t, data, reply, hl, happlied, hmem'⟩
    · exact ⟨current, hkept, hR⟩
    · exact ⟨_, hmem', happly row current t data reply hmem hl happlied hR⟩
  intro t th hth row hseen
  rcases hs.thread_cases hth with
    hold | ⟨info, -, -, rfl⟩ | ⟨info, history, op, k, reply, -, hold, hexec, rfl⟩
  · exact hlater row (h t th hold row hseen)
  · obtain ⟨ev, hmem, -⟩ := hseen
    cases hmem
  · rcases rowSeen_append_singleton.mp hseen with hseen | hanswers
    · exact hlater row (h t _ hold row hseen)
    · exact ⟨row, (exec_outboxEffect hexec).2 row hanswers, hrefl row⟩

theorem ReachableUnder.snapshots (h : ReachableUnder env C s) : Snapshots SameEvent s := by
  induction h with
  | start _ => exact fun t th hth => by cases hth
  | step _ _ hs ih => exact ih.step hs SameEvent.refl fun _ _ _ data _ _ _ _ hR => hR.apply data

/-- The execution whose events a job stores. -/
def Job.executionId : Job → String
  | .delivery message => messageExecutionId message
  | .outboxDispatcher => ""

theorem Job.program_safe : ∀ job : Job, Safe (OutboxOp job.executionId) job.program
  | .delivery message => handleDelivery_safe message
  | .outboxDispatcher => outboxDispatcherCycle_safe

theorem ReachableUnder.outboxOp (h : ReachableUnder env C s) :
    s.Conform (.ofSafe fun job => OutboxOp job.executionId) :=
  Pool.Reachable.obeys (fun job => job.program_safe []) h

/-- A dispatch is recorded by a thread from the snapshot it read last of the
row, which was not published then. -/
theorem ReachableUnder.snapshot_of_update (h : ReachableUnder env C s)
    (hs : Pool.Step (workerSystem env) s l s') {row : OutboxMessage}
    (hrow : row ∈ s.world.store.outbox) {t : Nat} {data : OutboxUpdate} {reply : Reply JsError Unit}
    (hl : l = .act t ⟨.db (.updateOutbox row.id data), reply⟩) :
    ∃ th snapshot, s.threads t = some th ∧ LatestRow th.history snapshot ∧ SameEvent snapshot row
      ∧ snapshot.status ≠ .published ∧ RecordsDispatch th.history snapshot data := by
  subst hl
  obtain ⟨info, history, k, hth, -, -⟩ := hs.act_cases
  obtain ⟨snapshot, hlatest, hid, hstatus, hrecords⟩ := h.outboxOp.next hth
  obtain ⟨current, hcurrent, hsame⟩ := h.snapshots t _ hth snapshot hlatest.seen
  obtain rfl := h.uniqueRows.eq_of_id hcurrent hrow (hsame.id_eq.trans hid)
  exact ⟨_, snapshot, hth, hlatest, hsame, hstatus, hrecords⟩

/-! ## Stored and published events -/

/-- A step stores an event of the execution its thread is about. -/
theorem ReachableUnder.stored (h : ReachableUnder env C s)
    (hs : Pool.Step (workerSystem env) s l s') {t : Nat} {op : WorkerOp}
    {reply : Reply JsError op.Result} (hl : l = .act t ⟨op, reply⟩)
    {message : WorkflowLifecycleMessage} (hstores : Stores op message) :
    ∃ th, s.threads t = some th ∧ message.EventOf th.info.executionId := by
  subst hl
  obtain ⟨info, history, k, hth, -, -⟩ := hs.act_cases
  exact ⟨_, hth, (h.outboxOp.next hth).eventOf hstores⟩

/-- Every row is named and keyed by its payload. -/
theorem ReachableUnder.keyed (h : ReachableUnder env C s) :
    ∀ row ∈ s.world.store.outbox, row.payload.Keyed := by
  induction h with
  | start hw =>
      subst hw
      exact fun row hrow => by cases hrow
  | step hreach _ hs ih =>
      intro row' hrow'
      rcases outboxEffect_of_step hs with ⟨heq, -⟩ | ⟨t, op, reply, hl, heffect⟩
      · exact ih row' (heq ▸ hrow')
      · rcases heffect.origin hrow' with
          hrow | ⟨ctx, routingKey, message, hstores, rfl⟩ | ⟨row, hrow, data, -, -, rfl⟩
        · exact ih row' hrow
        · obtain ⟨_, -, hmessage⟩ := ReachableUnder.stored hreach hs hl hstores
          exact hmessage.toKeyed
        · rw [data.apply_payload]
          exact ih row hrow

/-- The events exchange after a step: as before, or with one publication of
a thread. -/
theorem events_of_step (hs : Pool.Step (workerSystem env) s l s') :
    s'.world.events = s.world.events
    ∨ ∃ t p reply, l = .act t ⟨.publish p, reply⟩ ∧ p.exchange = .events
      ∧ s'.world.events = s.world.events ++ [p] := by
  rcases workerStep_cases hs with
    ⟨t, info, h, op, k, reply, rfl, -, hexec, -⟩ | ⟨rfl, -⟩ | ⟨-, commands, hworld⟩
  · rcases Environment.exec_cases hexec with ⟨heq, -⟩ | ⟨ctx, r, hrun, -⟩
    · exact Or.inl (heq ▸ rfl)
    · generalize s'.world = w' at hrun ⊢
      cases op with
      | publish p =>
          cases hrun
          rcases World.take_events s.world p with heq | ⟨hp, heq⟩
          · exact Or.inl heq
          · exact Or.inr ⟨t, p, reply, rfl, hp, heq⟩
      | db c =>
          obtain ⟨_, -, rfl⟩ := WorkerOp.run_db hrun
          exact Or.inl rfl
      | nack message allUpTo requeue =>
          cases hrun
          split <;> exact Or.inl rfl
      | _ =>
          cases hrun
          exact Or.inl rfl
  · cases hs with
    | env henv => cases henv <;> exact Or.inl rfl
  · exact Or.inl (by rw [hworld])

/-- A thread hands over an event that is in the outbox. -/
theorem ReachableUnder.row_of_publish (h : ReachableUnder env C s) {t : Nat} {p : Publication}
    {reply : Reply JsError Bool}
    (hs : Pool.Step (workerSystem env) s (.act t ⟨.publish p, reply⟩) s')
    (hp : p.exchange = .events) :
    ∃ row ∈ s.world.store.outbox, ∃ now, p = outboxPublication row now := by
  obtain ⟨info, history, k, hth, -, -⟩ := hs.act_cases
  obtain ⟨snapshot, now, hseen, -, rfl⟩ := h.outboxOp.next hth hp
  obtain ⟨row, hrow, hsame⟩ := h.snapshots t _ hth snapshot hseen
  exact ⟨row, hrow, now, (hsame.publication now).symm⟩

/-- Every event handed to the broker is in the outbox. -/
theorem ReachableUnder.handed (h : ReachableUnder env C s) :
    ∀ p ∈ s.world.events, ∃ row ∈ s.world.store.outbox, ∃ now, p = outboxPublication row now := by
  induction h with
  | start hw =>
      subst hw
      exact fun p hp => by cases hp
  | @step s s' l hreach _ hs ih =>
      have hlater : ∀ p, (∃ row ∈ s.world.store.outbox, ∃ now, p = outboxPublication row now) →
          ∃ row ∈ s'.world.store.outbox, ∃ now, p = outboxPublication row now := by
        rintro p ⟨row, hrow, now, rfl⟩
        rcases outboxRow_of_step hs hrow with ⟨hkept, -⟩ | ⟨_, data, _, -, -, hmem⟩
        · exact ⟨row, hkept, now, rfl⟩
        · exact ⟨_, hmem, now, (((SameEvent.refl row).apply data).publication now).symm⟩
      rcases events_of_step hs with heq | ⟨t, p, reply, rfl, hp, heq⟩
      · exact fun p hp => hlater p (ih p (heq ▸ hp))
      · intro p' hp'
        rw [heq] at hp'
        rcases List.mem_append.mp hp' with hp' | hp'
        · exact hlater p' (ih p' hp')
        · obtain rfl := List.mem_singleton.mp hp'
          exact hlater _ (ReachableUnder.row_of_publish hreach hs hp)

/-! ## The shape of rows -/

/-- What a row's status says, after the steps `labels`. -/
structure RowSound (labels : List WorkerLabel) (row : OutboxMessage) : Prop where
  pending : row.status = .pending → row.attempts < outboxMaxPublishAttempts
  failed : row.status = .failed → outboxMaxPublishAttempts ≤ row.attempts
  published : row.status = .published →
    ∃ t now, .act t ⟨.publish (outboxPublication row now), .ok true⟩ ∈ labels

omit [Runtime] in
theorem RowSound.append {labels : List WorkerLabel} {row : OutboxMessage}
    (h : RowSound labels row) (rest : List WorkerLabel) : RowSound (labels ++ rest) row where
  pending := h.pending
  failed := h.failed
  published hstatus := by
    obtain ⟨t, now, hmem⟩ := h.published hstatus
    exact ⟨t, now, List.mem_append_left _ hmem⟩

omit [Runtime] in
theorem newOutboxMessage_sound (labels : List WorkerLabel) (ctx : DbContext)
    (routingKey : FlowPilotRoutingKey) (message : WorkflowLifecycleMessage) :
    RowSound labels (Store.newOutboxMessage ctx routingKey message) where
  pending _ := by simp [Store.newOutboxMessage, outboxMaxPublishAttempts]
  failed h := by cases h
  published h := by cases h

omit [Runtime] in
/-- A dispatch that is recorded from a sound snapshot leaves the row sound,
whatever the row was: its status comes from the publish and the snapshot. -/
theorem RecordsDispatch.sound {labels : List WorkerLabel} {t : Nat} {h : WorkerHistory}
    {snapshot row : OutboxMessage} {data : OutboxUpdate}
    (hrecords : RecordsDispatch h snapshot data)
    (hmem : ∀ ev ∈ h, .act t ev ∈ labels) (hsnapshot : RowSound labels snapshot)
    (hstatus : snapshot.status ≠ .published) (hsame : SameEvent snapshot row) :
    RowSound labels (data.apply row) := by
  cases hrecords with
  | published now publishedAt hpublish =>
      refine ⟨by simp [OutboxUpdate.apply], by simp [OutboxUpdate.apply], fun _ => ⟨t, now, ?_⟩⟩
      rw [(hsame.apply (.published publishedAt)).publication]
      exact hmem _ hpublish
  | failure lastError =>
      by_cases hmax : outboxMaxPublishAttempts ≤ snapshot.attempts + 1
      · simp only [hmax, if_true]
        exact ⟨by simp [OutboxUpdate.apply], fun _ => hmax, by simp [OutboxUpdate.apply]⟩
      · simp only [hmax, if_false]
        refine ⟨fun _ => not_le.mp hmax, fun h => ?_, fun h => absurd h hstatus⟩
        exact absurd (Nat.le_succ_of_le (hsnapshot.failed h)) hmax

/-- After the steps `labels`: rows and snapshots are sound, and what the
threads have done is among the steps. -/
structure OutboxSound (labels : List WorkerLabel) (s : WorkerPool) : Prop where
  rows : ∀ row ∈ s.world.store.outbox, RowSound labels row
  snapshots : ∀ t th, s.threads t = some th → ∀ row, RowSeen th.history row → RowSound labels row
  recorded : ∀ t th, s.threads t = some th → ∀ ev ∈ th.history, .act t ev ∈ labels

theorem OutboxSound.step {labels : List WorkerLabel} (hsound : OutboxSound labels s)
    (h : ReachableUnder env C s) (hs : Pool.Step (workerSystem env) s l s') :
    OutboxSound (labels ++ [l]) s' := by
  have hrows : ∀ row ∈ s'.world.store.outbox, RowSound (labels ++ [l]) row := by
    intro row' hrow'
    rcases outboxEffect_of_step hs with ⟨heq, -⟩ | ⟨t, op, reply, hl, heffect⟩
    · exact (hsound.rows row' (heq ▸ hrow')).append _
    · rcases heffect.origin hrow' with
        hrow | ⟨ctx, routingKey, message, -, rfl⟩ | ⟨row, hrow, data, rfl, -, rfl⟩
      · exact (hsound.rows row' hrow).append _
      · exact newOutboxMessage_sound _ ctx routingKey message
      · subst hl
        obtain ⟨th, snapshot, hth, hlatest, hsame, hstatus, hrecords⟩ :=
          h.snapshot_of_update hs hrow rfl
        exact (hrecords.sound (hsound.recorded t th hth)
          (hsound.snapshots t th hth snapshot hlatest.seen) hstatus hsame).append _
  refine ⟨hrows, fun t th hth row hseen => ?_, fun t th hth ev hev => ?_⟩
  · rcases hs.thread_cases hth with
      hold | ⟨info, -, -, rfl⟩ | ⟨info, history, op, k, reply, -, hold, hexec, rfl⟩
    · exact (hsound.snapshots t th hold row hseen).append _
    · obtain ⟨ev, hmem, -⟩ := hseen
      cases hmem
    · rcases rowSeen_append_singleton.mp hseen with hseen | hanswers
      · exact (hsound.snapshots t _ hold row hseen).append _
      · exact hrows row ((exec_outboxEffect hexec).2 row hanswers)
  · rcases hs.thread_cases hth with
      hold | ⟨info, -, -, rfl⟩ | ⟨info, history, op, k, reply, rfl, hold, hexec, rfl⟩
    · exact List.mem_append_left _ (hsound.recorded t th hold ev hev)
    · cases hev
    · rcases List.mem_append.mp hev with hev | hev
      · exact List.mem_append_left _ (hsound.recorded t _ hold ev hev)
      · rw [List.mem_singleton.mp hev]
        exact List.mem_append_right _ (List.mem_singleton_self _)

/-- The steps of a run from the empty system. -/
theorem outboxSound_of_run {labels : List WorkerLabel}
    (hrun : Pool.Run (workerSystem env) C ⟨.empty, fun _ => none⟩ labels s) :
    OutboxSound labels s := by
  induction hrun with
  | refl =>
      exact ⟨by simp [World.empty, Store.empty], by simp, by simp⟩
  | step hrun _ hs ih => exact ih.step (hrun.reachable (.start rfl)) hs

/-- No row of the outbox is stuck or falsely published, after any run: a
pending row has attempts left, so the periodic dispatcher asks for it, a
failed row has used them up, and for a published row a publish of exactly
this row found room. -/
theorem outbox_rows_sound (env : Environment) (labels : List WorkerLabel) (s : WorkerPool)
    (hrun : Pool.Run (workerSystem env) (fun _ _ => True) ⟨.empty, fun _ => none⟩ labels s)
    (row : OutboxMessage) (hrow : row ∈ s.world.store.outbox) :
    (row.status = .pending → row.attempts < outboxMaxPublishAttempts
      ∧ (OutboxFilter.attemptsBelow outboxMaxPublishAttempts).matches row = true)
    ∧ (row.status = .failed → outboxMaxPublishAttempts ≤ row.attempts)
    ∧ (row.status = .published →
      ∃ t now, .act t ⟨.publish (outboxPublication row now), .ok true⟩ ∈ labels) := by
  have hsound := (outboxSound_of_run hrun).rows row hrow
  refine ⟨fun hstatus => ⟨hsound.pending hstatus, ?_⟩, hsound.failed, hsound.published⟩
  simp [OutboxFilter.matches, hstatus, hsound.pending hstatus]

end

/-- Two dispatchers hold snapshots of the started event: a worker stored it,
the cycles 1 and 2 found it pending, and cycle 1 published it. -/
def twoDispatchers : List Turn :=
  [.deliver 0, .run 0 4 0 fun _ => true, .dispatch 1, .run 1 1 10 fun _ => true,
    .dispatch 2, .run 2 1 20 fun _ => true, .run 1 4 30 fun _ => true]

/-- The theorem about the shape of rows, for a row that was published. -/
theorem outbox_rows_sound_published :
    ∃ (_ : Runtime) (env : Environment) (labels : List WorkerLabel) (s : WorkerPool)
      (row : OutboxMessage),
      Pool.Run (workerSystem env) (fun _ _ => True) ⟨.empty, fun _ => none⟩ labels s
      ∧ row ∈ s.world.store.outbox ∧ row.status = .published
      ∧ ∃ t now, .act t ⟨.publish (outboxPublication row now), .ok true⟩ ∈ labels := by
  let _ : Runtime := .sample false
  obtain ⟨s, -, -, hs, -, hP⟩ := exists_run_of_turns defaultWorkflowDefinition
    twoDispatchers [] (fun _ => true) (C := fun _ _ => True) (fun _ => trivial)
    (fun _ _ _ => trivial)
    (P := fun _ s _ => s.world.store.outbox.any fun row => row.status = .published)
    (by decide +kernel)
  obtain ⟨w, labels, rfl, hrun⟩ := Pool.Reachable.exists_run hs
  obtain ⟨row, hrow, hcheck⟩ := List.any_eq_true.mp hP
  have hstatus := of_decide_eq_true hcheck
  exact ⟨_, _, labels, s, row, hrun, hrow, hstatus,
    (outbox_rows_sound _ labels s hrun row hrow).2.2 hstatus⟩

end FlowPilot
