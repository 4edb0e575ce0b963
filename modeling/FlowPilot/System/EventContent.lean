import FlowPilot.System.NodeAgreement
import FlowPilot.System.NodeFailure
import FlowPilot.System.Provenance
import FlowPilot.Worker.NodeEvents

/-!
# The events of a node and its row

Every attempt overwrites the row of a node, and the outbox keeps the first
event under each key, which names the execution and the node but no attempt.
So the row tells how the last attempt ended, and the event how the attempt
ended that stored it. `node_events_agree` says that nothing else sets the two
apart; `node_events_disagree` is a run with two attempts.
-/

namespace FlowPilot

open Prog hiding pure throw bind tryCatch

/-! ## Agreement -/

/-- The event says that the node of the row has ended, and how. -/
def LifecyclePayload.TellsOf (payload : LifecyclePayload) (row : WorkflowNodeExecution)
    (result : NodeResult) : Prop :=
  payload.executionId = row.executionId ∧ payload.nodeResult = some (row.nodeId, result)

/-- Where the event says how the row ended, the row says the same. -/
structure EventAgrees (row : WorkflowNodeExecution) (payload : LifecyclePayload) : Prop where
  completed : ∀ output, payload.TellsOf row (.completed output) → row.status = .succeeded →
    row.output = some output
  failed : ∀ error, payload.TellsOf row (.failed error) → row.status = .failed →
    row.error.map (·.toFlowPilotExecutionError) = some error

/-- The node ended the same way, but with another output or another error. -/
def NodeResult.Contradicts : NodeResult → NodeResult → Prop
  | .completed output, .completed output' => output ≠ output'
  | .failed error, .failed error' => error ≠ error'
  | _, _ => False

/-- The step ends the row `id` once more, and contradicts an event that is
stored with this payload. -/
def EndsAgain (id : String) (payload : LifecyclePayload) (s : WorkerPool) (l : WorkerLabel) :
    Prop :=
  ∃ t data reply, l = .act t ⟨.db (.updateNode id data), reply⟩ ∧ reply.applied = true
    ∧ ∃ row ∈ s.world.store.nodeExecutions, row.id = id
      ∧ ∃ event ∈ s.world.store.outbox, event.payload.payload = payload
        ∧ ∃ result, payload.TellsOf row result ∧ data.result.Contradicts result

section

variable {row : WorkflowNodeExecution} {payload : LifecyclePayload} {data : NodeExecutionUpdate}

theorem LifecyclePayload.TellsOf.result_eq {result result' : NodeResult}
    (h : payload.TellsOf row result) (h' : payload.TellsOf row result') : result = result' :=
  (Prod.mk.inj (Option.some.inj (h.2.symm.trans h'.2))).2

theorem tellsOf_apply {result : NodeResult} :
    payload.TellsOf (data.apply row) result ↔ payload.TellsOf row result := by
  have hsame := WorkflowNodeExecution.sameRow_apply data row
  rw [LifecyclePayload.TellsOf, hsame.executionId, hsame.nodeId, LifecyclePayload.TellsOf]

theorem EventAgrees.of_running (h : row.status = .running) : EventAgrees row payload where
  completed _ _ hstatus := by cases h.symm.trans hstatus
  failed _ _ hstatus := by cases h.symm.trans hstatus

/-- A row that was updated without contradicting the event. -/
theorem EventAgrees.of_apply
    (h : ∀ result, payload.TellsOf row result → ¬ data.result.Contradicts result) :
    EventAgrees (data.apply row) payload where
  completed output htells hstatus := by
    have hnot := h _ (tellsOf_apply.mp htells)
    cases data with
    | succeeded output' completedAt => exact congrArg some (not_not.mp hnot)
    | failed failure completedAt => cases hstatus
  failed error htells hstatus := by
    have hnot := h _ (tellsOf_apply.mp htells)
    cases data with
    | succeeded output completedAt => cases hstatus
    | failed failure completedAt => exact congrArg some (not_not.mp hnot)

theorem NodeResult.not_contradicts_self (result : NodeResult) : ¬ result.Contradicts result := by
  cases result <;> exact fun h => h rfl

end

/-! ## The row that was updated last -/

/-- The last write of the row was `data`. -/
def NodeExecutionUpdate.ShownBy (data : NodeExecutionUpdate) (row : WorkflowNodeExecution) : Prop :=
  ∃ before, row = data.apply before

section

variable [Runtime] {env : Environment} {C : WorkerPool → WorkerLabel → Prop} {s s' : WorkerPool}
  {l : WorkerLabel} {x : String}

theorem Job.program_tells : ∀ job : Job, SafeFrom TellsResult [] job.program
  | .delivery message => handleDelivery_tells message []
  | .outboxDispatcher => safe_of_makesNothing outboxDispatcherCycle_makesNothing []

theorem ReachableUnder.tells (h : ReachableUnder env C s) :
    s.Conform (.ofSafe fun _ => TellsResult) :=
  Pool.Reachable.obeys Job.program_tells h

/-- The row of an execution that shows the update. -/
def RowShows (x id : String) (data : NodeExecutionUpdate) (rows : List WorkflowNodeExecution) :
    Prop :=
  ∃ row ∈ rows, row.id = id ∧ row.executionId = x ∧ data.ShownBy row

/-- What the engaged delivery of an execution has just written is there. -/
def UpdateShown (s : WorkerPool) : Prop :=
  ∀ t th x, ¬ Ended x s.world.store → s.threads t = some th → Engaged x th →
    ∀ id data, lastUpdate th.history = some (id, data) →
      RowShows x id data s.world.store.nodeExecutions

/-- So it is after one of its calls. -/
theorem UpdateShown.call (h : ReachableUnder env C s) {t : Nat} {info : Job}
    {history : WorkerHistory} {op : WorkerOp} {k : Except JsError op.Result → Worker Unit}
    {reply : Reply JsError op.Result} {rows : List WorkflowNodeExecution}
    (hth : s.threads t = some ⟨info, history, .call op k⟩)
    (heffect : NodeEffect s.world.store.nodeExecutions ⟨op, reply⟩ rows)
    (hactive : Active x ⟨info, history, .call op k⟩)
    (hshown : ∀ id data, lastUpdate history = some (id, data) →
      RowShows x id data s.world.store.nodeExecutions) :
    ∀ id data, lastUpdate (history ++ [⟨op, reply⟩]) = some (id, data) →
      RowShows x id data rows := by
  intro id data hlast
  rcases lastUpdate_cases hlast with ⟨hleaves, hlast⟩ | ⟨r, hev⟩
  · obtain ⟨row, hrow, hid, hx, hdata⟩ := hshown id data hlast
    exact ⟨row, heffect.mem hrow fun htouch => hleaves.not_writes htouch.writes, hid, hx, hdata⟩
  · cases hev
    obtain ⟨⟨message, rfl, m, hm, rfl⟩, -⟩ := hactive
    obtain ⟨message', m', hinfo, hm', -, nodeId, -, row, hrow, hid, hof⟩ := h.updatesRow hth
    cases hinfo
    obtain rfl := Option.some.inj (hm.symm.trans hm')
    have hsame := WorkflowNodeExecution.sameRow_apply data row
    exact ⟨data.apply row, heffect.apply_mem rfl hrow hid, hsame.id.trans hid,
      hsame.executionId.trans hof.1, row, rfl⟩

omit [Runtime] in
theorem RowShows.of_frame {id : String} {data : NodeExecutionUpdate}
    {rows rows' : List WorkflowNodeExecution} (h : RowShows x id data rows)
    (heq : rows'.filter (·.executionId = x) = rows.filter (·.executionId = x)) :
    RowShows x id data rows' := by
  obtain ⟨row, hrow, hid, hx, hdata⟩ := h
  exact ⟨row, mem_of_frame hrow hx heq, hid, hx, hdata⟩

/-- A delivery that has just updated a row is engaged. -/
theorem ReachableUnder.engaged_of_lastUpdate (h : ReachableUnder env C s) {t : Nat}
    {info : Job} {history : WorkerHistory} {p : Worker Unit} {id : String}
    {data : NodeExecutionUpdate} (hth : s.threads t = some ⟨info, history, p⟩)
    (hactive : Active x ⟨info, history, p⟩) (hlast : lastUpdate history = some (id, data)) :
    Engaged x ⟨info, history, p⟩ := by
  obtain ⟨message, rfl, m, hm, rfl⟩ := hactive.delivery
  obtain ⟨m', hm', hruns⟩ :=
    runsNodes_of_lastUpdate (along_mono (fun _ _ h => h.1) (h.nodeRowOp t _ hth).past) hlast
  obtain rfl := Option.some.inj (hm.symm.trans hm')
  exact RunsNodesOf.engaged ⟨hactive, message, m, rfl, hm, rfl, hruns⟩

theorem UpdateShown.step (hshown : UpdateShown s) (h : ReachableUnder env C s)
    (hexclusive : Exclusive s) (hs : Pool.Step (workerSystem env) s l s') : UpdateShown s' :=
  EngagedKnows.step (K := fun x history rows =>
      ∀ id data, lastUpdate history = some (id, data) → RowShows x id data rows)
    (fun hknows heq id data hlast => (hknows id data hlast).of_frame heq)
    (fun hth hactive hread _ _ hlast =>
      absurd (h.engaged_of_lastUpdate hth hactive hlast).read hread)
    (UpdateShown.call h) hshown h hexclusive hs

/-! ## Events and rows -/

omit [Runtime] in
/-- An event of the command is about its execution. -/
theorem CreatedFor.payload_executionId {m : WorkflowExecutionRequestedMessage}
    {message : WorkflowLifecycleMessage} (h : CreatedFor m message) :
    message.payload.executionId = m.executionId := by
  cases h with
  | aiTraceCreated eventId trace htrace => exact htrace.executionId
  | _ => rfl

omit [Runtime] in
theorem MadeFor.createdFor {m : WorkflowExecutionRequestedMessage} {op : WorkerOp}
    {message : WorkflowLifecycleMessage} (h : MadeFor m op) (hstores : Stores op message) :
    CreatedFor m message := by
  cases hstores with
  | upsert routingKey message => exact h.1
  | transaction t => exact h.1

/-- When an event is stored, the row of its node shows what it tells. -/
theorem agrees_when_stored (h : ReachableUnder env C s) (hruns : RunsLive s)
    (hshown : UpdateShown s) {t : Nat} {info : Job} {history : WorkerHistory} {op : WorkerOp}
    {k : Except JsError op.Result → Worker Unit} {message : WorkflowLifecycleMessage}
    {row : WorkflowNodeExecution} (hth : s.threads t = some ⟨info, history, .call op k⟩)
    (hstores : Stores op message) (hrow : row ∈ s.world.store.nodeExecutions) :
    EventAgrees row message.payload := by
  by_cases htells : ∃ result, message.payload.TellsOf row result
  · obtain ⟨result, htells⟩ := htells
    obtain ⟨id, data, hlast, hdata, hcurrent⟩ :=
      (ReachableUnder.tells h).next hth message hstores row.nodeId result htells.2
    obtain ⟨delivery, m, rfl, hm, current, hmem, hid, hof⟩ := h.ownsRow t _ hth _ _ hcurrent
    obtain ⟨m', hm', hrunsNodes⟩ :=
      runsNodes_of_lastUpdate (along_mono (fun _ _ h => h.1) (h.nodeRowOp t _ hth).past) hlast
    obtain rfl := Option.some.inj (hm.symm.trans hm')
    have hactive : Active m.executionId ⟨.delivery delivery, history, .call op k⟩ :=
      active_of_call hm
    have hrunsOf : RunsNodesOf m.executionId ⟨.delivery delivery, history, .call op k⟩ :=
      ⟨hactive, delivery, m, rfl, hm, rfl, hrunsNodes⟩
    obtain ⟨shown, hmem', hid', -, before, hbefore⟩ :=
      hshown t _ _ (hruns t _ _ hth hrunsOf).not_ended hth hrunsOf.engaged id data hlast
    -- the row shown is the current one, which is the one of the node
    obtain rfl := h.uniqueNodes.eq_of_id hmem' hmem (hid'.trans hid.symm)
    have hmakes : DeliveryMakes delivery op := (ReachableUnder.makes h).next hth
    simp only [DeliveryMakes, hm] at hmakes
    have hx := (hmakes.createdFor hstores).payload_executionId
    obtain rfl := h.uniqueNodes.eq_of_isOf hrow hmem ⟨htells.1.symm.trans hx, rfl⟩ hof
    subst hbefore
    refine .of_apply fun result' htells' => ?_
    have hsame := (tellsOf_apply.mpr htells').result_eq htells
    rw [hsame, hdata]
    exact result.not_contradicts_self
  · exact ⟨fun _ h => absurd ⟨_, h⟩ htells, fun _ h => absurd ⟨_, h⟩ htells⟩

/-- The row `id` agrees with an event of this payload, once it is stored. -/
def StoredAgrees (id : String) (payload : LifecyclePayload) (s : WorkerPool) : Prop :=
  ∀ row ∈ s.world.store.nodeExecutions, row.id = id →
    ∀ event ∈ s.world.store.outbox, event.payload.payload = payload → EventAgrees row payload

theorem StoredAgrees.step {id : String} {payload : LifecyclePayload}
    (hagrees : StoredAgrees id payload s) (h : ReachableUnder env C s) (hruns : RunsLive s)
    (hshown : UpdateShown s) (hnot : ¬ EndsAgain id payload s l)
    (hs : Pool.Step (workerSystem env) s l s') : StoredAgrees id payload s' := by
  intro row' hrow' hid event' hevent' hpayload
  rcases tables_of_step hs with ⟨t, op, reply, rfl, hexec⟩ | ⟨-, houtbox, hrows, -⟩
  · obtain ⟨info, history, k, hth, -, -⟩ := hs.act_cases
    have heffect := exec_nodeEffect hexec
    have hold : ∀ event ∈ s.world.store.outbox, event.payload.payload = payload →
        EventAgrees row' payload := by
      intro event hevent hpayload
      rcases heffect.origin h.uniqueNodes hrow' with ⟨hrow, -⟩
        | ⟨m, node, input, startedAt, reply', -, -, -, -, hrunning⟩
        | ⟨id', data, reply', hev, happlied, row, hrow, rfl, rfl⟩
      · exact hagrees row' hrow hid event hevent hpayload
      · exact .of_running hrunning
      · cases hev
        refine .of_apply fun result htells hcontradicts => hnot ?_
        have hsame := WorkflowNodeExecution.sameRow_apply data row
        obtain rfl : row.id = id := hsame.id.symm.trans hid
        exact ⟨t, data, _, rfl, happlied, row, hrow, rfl, event, hevent, hpayload, result,
          htells, hcontradicts⟩
    rcases (exec_outboxEffect hexec).1.origin hevent' with
      hevent | ⟨ctx, routingKey, message, hstores, rfl⟩ | ⟨event, hevent, data, -, -, rfl⟩
    · exact hold event' hevent hpayload
    · obtain rfl : message.payload = payload := hpayload
      rcases heffect.origin h.uniqueNodes hrow' with ⟨hrow, -⟩
        | ⟨m, node, input, startedAt, reply', hev, -⟩ | ⟨id', data, reply', hev, -⟩
      · exact agrees_when_stored h hruns hshown hth hstores hrow
      · cases hev
        cases hstores
      · cases hev
        cases hstores
    · exact hold event hevent (by rwa [OutboxUpdate.apply_payload] at hpayload)
  · exact hagrees row' (hrows ▸ hrow') hid event' (houtbox ▸ hevent') hpayload

/-- What holds in the states of runs without overlap, as long as the row is
not ended again. -/
theorem ReachableUnder.storedAgrees {id : String} {payload : LifecyclePayload}
    (h : ReachableUnder env (fun s l => NoOverlap s l ∧ ¬ EndsAgain id payload s l) s) :
    UpdateShown s ∧ StoredAgrees id payload s := by
  induction h with
  | start hw =>
      subst hw
      exact ⟨fun _ _ _ _ => nofun, fun _ => nofun⟩
  | @step s s' l hreach hc hs ih =>
      have hagree := ReachableUnder.nodesAgree (Pool.Reachable.mono (fun _ _ _ h => h.1) hreach)
      exact ⟨ih.1.step hreach hagree.exclusive hs,
        ih.2.step hreach hagree.runsLive ih.1 hc.2 hs⟩

/-- **Events and rows.** In every run in which the deliveries that read an
execution before it has ended do not overlap, a row of a node and an event
about it agree, unless a step ended the row again after the event had been
stored, and contradicted it. -/
theorem node_events_agree {labels : List WorkerLabel}
    (hrun : Pool.Run (workerSystem env) NoOverlap ⟨.empty, fun _ => none⟩ labels s) :
    ∀ row ∈ s.world.store.nodeExecutions, ∀ event ∈ s.world.store.outbox,
      EventAgrees row event.payload.payload
      ∨ ∃ first l rest s₁ s₂, labels = first ++ l :: rest
        ∧ Pool.Run (workerSystem env) NoOverlap ⟨.empty, fun _ => none⟩ first s₁
        ∧ Pool.Step (workerSystem env) s₁ l s₂
        ∧ Pool.Run (workerSystem env) NoOverlap s₂ rest s
        ∧ EndsAgain row.id event.payload.payload s₁ l := by
  intro row hrow event hevent
  rcases hrun.meets_or_exists fun s l => ¬ EndsAgain row.id event.payload.payload s l with
    hmeets | ⟨first, l, rest, s₁, s₂, hlabels, hfirst, hstep, hrest, hends⟩
  · have hreach : ReachableUnder env (fun s l =>
        NoOverlap s l ∧ ¬ EndsAgain row.id event.payload.payload s l) s :=
      hmeets.reachable (.start rfl)
    exact Or.inl (hreach.storedAgrees.2 row hrow rfl event hevent rfl)
  · exact Or.inr ⟨first, l, rest, s₁, s₂, hlabels, hfirst, hstep, hrest, not_not.mp hends⟩

end

/-! ## Two attempts -/

/-- Executors answer anything; executions are created from `row`, and no
foreign messages arrive. -/
def arbitraryEnvironment (row : WorkflowExecutionRow) : Environment :=
  { scriptEnvironment row with executor := fun _ _ _ => True }

/-- A script in which a node answers with the number of the call. -/
def numbered (accepted : Nat → Bool) (i : Nat) (op : WorkerOp) (w : World) :
    Option (Reply JsError op.Result × World) :=
  (op.run { scriptContext accepted i with output := [("call", .num i)] } w).map
    fun (r, w') => (.ok r, w')

theorem numbered_sound {row : WorkflowExecutionRow} {accepted : Nat → Bool} (i : Nat)
    (op : WorkerOp) (w : World) (reply : Reply JsError op.Result) (w' : World)
    (h : numbered accepted i op w = some (reply, w')) :
    (arbitraryEnvironment row).exec op w reply w' := by
  obtain ⟨⟨r, w₁⟩, hrun, heq⟩ := Option.map_eq_some_iff.mp h
  cases heq
  refine ⟨?_, _, hrun⟩
  cases op with
  | executeWorkflowNode node context => exact Or.inr trivial
  | _ => trivial

/-- The next command is handled, to the end. -/
def attempt [Runtime] (accepted : Nat → Bool) (i : Nat) (w : World) : Option World :=
  w.nextCommand.bind fun (message, w₁) =>
    (runCalls (numbered accepted) 100 i (handleDelivery message) w₁).bind fun (_, q, w₂) =>
      if q.returned then some w₂ else none

/-- A delivery is started only when all others have returned, and it overlaps
with none of them. -/
def OneAfterAnother [Runtime] (s : WorkerPool) (l : WorkerLabel) : Prop :=
  (∀ t message, l = .spawn t (.delivery message) →
    ∀ t' th, s.threads t' = some th → th.prog = .pure ())
  ∧ NoOverlap s l

section

variable [Runtime] {row : WorkflowExecutionRow} {s s' : WorkerPool} {k : Nat}

theorem oneAfterAnother_env (s : WorkerPool) : OneAfterAnother s .env :=
  ⟨fun _ _ => nofun, fun _ _ _ => nofun⟩

/-- The threads of the first `k` numbers have returned, and there are no
others. -/
structure AllReturned (k : Nat) (s : WorkerPool) : Prop where
  returned : ∀ t th, s.threads t = some th → th.prog = .pure ()
  free : ∀ t, k ≤ t → s.threads t = none

/-- The next delivery overlaps with none of them. -/
theorem AllReturned.noOverlap (h : AllReturned k s)
    (hothers : ∀ t, t ≠ k → s'.threads t = s.threads t) (ev : WorkerEvent) :
    NoOverlap s' (.act k ev) := by
  rintro t _ x hl - - t' th hne hth hengaged
  cases hl
  have hover := h.returned t' th (hothers t' hne ▸ hth)
  have hrunning := hengaged.running
  rw [hover] at hrunning
  cases hrunning

theorem attempt_reachable {accepted : Nat → Bool} {i : Nat} {w' : World}
    (hs : ReachableUnder (arbitraryEnvironment row) OneAfterAnother s) (hreturned : AllReturned k s)
    (h : attempt accepted i s.world = some w') :
    ∃ s', ReachableUnder (arbitraryEnvironment row) OneAfterAnother s' ∧ AllReturned (k + 1) s'
      ∧ s'.world = w' := by
  obtain ⟨⟨message, w₁⟩, hnext, h⟩ := Option.bind_eq_some_iff.mp h
  obtain ⟨⟨events, q, w₂⟩, hcalls, h⟩ := Option.bind_eq_some_iff.mp h
  obtain ⟨hq, heq⟩ := Option.ite_none_right_eq_some.mp h
  cases heq
  obtain rfl := eq_pure_of_returned hq
  have hdone := reachable_delivery hs (hreturned.free k (Nat.le_refl k)) oneAfterAnother_env
    (fun s' h => ⟨fun _ _ _ t th hth => hreturned.returned t th (h ▸ hth),
      fun _ _ _ => nofun⟩)
    (fun s' hothers ev _ => ⟨fun _ _ => nofun, hreturned.noOverlap hothers ev⟩) hnext
    (runCalls_sound numbered_sound hcalls)
  refine ⟨_, hdone, ⟨fun t th hth => ?_, fun t ht => ?_⟩, rfl⟩
  · by_cases htk : t = k
    · subst htk
      simp only [Function.update_self] at hth
      obtain rfl := Option.some.inj hth
      rfl
    · exact hreturned.returned t th (by simpa [htk] using hth)
  · have htk : t ≠ k := by omega
    simpa [htk] using hreturned.free t (by omega)

/-- Two attempts, one after the other: what was checked of them is true of
a run. -/
theorem exists_run_of_attempts (definition : Json) (first second : Nat → Bool)
    {P : World → Bool}
    (h : ((attempt first 0 (.requesting definition)).bind (attempt second 100)).any P = true) :
    ∃ labels s, Pool.Run (workerSystem (arbitraryEnvironment (newRow definition)))
        OneAfterAnother ⟨.empty, fun _ => none⟩ labels s
      ∧ P s.world = true := by
  obtain ⟨w₂, h, hP⟩ := (Option.any_eq_true _ _).mp h
  obtain ⟨w₁, hfirst, hsecond⟩ := Option.bind_eq_some_iff.mp h
  have hidle : AllReturned 0 (WorkerPool.requesting definition) :=
    ⟨fun _ _ => nofun, fun _ _ => rfl⟩
  obtain ⟨s₁, hs₁, hreturned, rfl⟩ := attempt_reachable
    (reachable_requesting definition rfl oneAfterAnother_env) hidle hfirst
  obtain ⟨s₂, hs₂, -, rfl⟩ := attempt_reachable hs₁ hreturned hsecond
  obtain ⟨w, labels, rfl, hrun⟩ := Pool.Reachable.exists_run hs₂
  exact ⟨labels, s₂, hrun, hP⟩

end

/-- Whether the event tells another output of the node than its row has. -/
def tellsOther (row : WorkflowNodeExecution) (event : OutboxMessage) : Bool :=
  match event.payload.payload.nodeResult with
  | some (nodeId, .completed output) =>
      event.payload.payload.executionId = row.executionId && nodeId = row.nodeId
        && row.output ≠ some output
  | _ => false

theorem exists_output_of_tellsOther {row : WorkflowNodeExecution} {event : OutboxMessage}
    (h : tellsOther row event = true) :
    ∃ output, event.payload.payload.TellsOf row (.completed output) ∧ row.output ≠ some output := by
  unfold tellsOther at h
  split at h
  · rename_i nodeId output hresult
    simp only [Bool.and_eq_true, decide_eq_true_eq] at h
    obtain ⟨⟨hx, rfl⟩, hother⟩ := h
    exact ⟨output, ⟨hx, hresult⟩, hother⟩
  · cases h

/-- Whether the execution has succeeded, and there is such an event about a
node that has. -/
def World.tellsOther (w : World) : Bool :=
  w.hasStatus "execution" .succeeded && w.store.nodeExecutions.any fun row =>
    row.executionId = "execution" && row.status = .succeeded
      && w.store.outbox.any (FlowPilot.tellsOther row)

/-- The first attempt stores the completed event of the prompt, but finds no
room for it in the broker's buffer, so the command is retried. -/
theorem twoAttempts_tellsOther : let _ : Runtime := .sample false
    ((attempt (· ≠ 46) 0 (.requesting promptWorkflowDefinition)).bind
      (attempt (fun _ => true) 100)).any World.tellsOther = true := by
  decide +kernel

/-- What was checked, of a state. -/
theorem exists_event_of_tellsOther {w : World} (h : w.tellsOther = true) :
    (∃ execution, w.store.executions "execution" = some execution
      ∧ execution.status = .succeeded)
    ∧ ∃ row ∈ w.store.nodeExecutions, row.executionId = "execution" ∧ row.status = .succeeded
      ∧ ∃ event ∈ w.store.outbox, ∃ output,
        event.payload.payload.TellsOf row (.completed output) ∧ row.output ≠ some output := by
  simp only [World.tellsOther, Bool.and_eq_true, List.any_eq_true, decide_eq_true_eq] at h
  obtain ⟨hsucceeded, row, hrow, ⟨hx, hstatus⟩, event, hevent, htells⟩ := h
  exact ⟨World.hasStatus_iff.mp hsucceeded, row, hrow, hx, hstatus, event, hevent,
    exists_output_of_tellsOther htells⟩

/-- In a run of two deliveries, one after the other, the execution and the
prompt have succeeded, and the completed event of the prompt tells another
output than its row. -/
theorem node_events_disagree :
    ∃ (_ : Runtime) (env : Environment) (labels : List WorkerLabel) (s : WorkerPool),
      Pool.Run (workerSystem env) OneAfterAnother ⟨.empty, fun _ => none⟩ labels s
      ∧ (∃ execution, s.world.store.executions "execution" = some execution
        ∧ execution.status = .succeeded)
      ∧ ∃ row ∈ s.world.store.nodeExecutions, row.executionId = "execution"
        ∧ row.status = .succeeded ∧ ∃ event ∈ s.world.store.outbox, ∃ output,
          event.payload.payload.TellsOf row (.completed output) ∧ row.output ≠ some output := by
  let _ : Runtime := .sample false
  obtain ⟨labels, s, hrun, hcheck⟩ := exists_run_of_attempts _ _ _ twoAttempts_tellsOther
  exact ⟨_, _, labels, s, hrun, exists_event_of_tellsOther hcheck⟩

/-- The theorem there: a step ended the prompt again after its completed event
had been stored, with another output. -/
theorem node_events_agree_attempts :
    ∃ (_ : Runtime) (env : Environment) (labels : List WorkerLabel) (s : WorkerPool),
      Pool.Run (workerSystem env) NoOverlap ⟨.empty, fun _ => none⟩ labels s
      ∧ ∃ row ∈ s.world.store.nodeExecutions, ∃ event ∈ s.world.store.outbox,
        ¬ EventAgrees row event.payload.payload
        ∧ ∃ first l rest s₁, labels = first ++ l :: rest
          ∧ Pool.Run (workerSystem env) NoOverlap ⟨.empty, fun _ => none⟩ first s₁
          ∧ EndsAgain row.id event.payload.payload s₁ l := by
  let _ : Runtime := .sample false
  obtain ⟨labels, s, hrun, hcheck⟩ := exists_run_of_attempts _ _ _ twoAttempts_tellsOther
  obtain ⟨-, row, hrow, -, hstatus, event, hevent, output, htells, hother⟩ :=
    exists_event_of_tellsOther hcheck
  have hdisagree : ¬ EventAgrees row event.payload.payload :=
    fun h => hother (h.completed output htells hstatus)
  have hrun' := hrun.mono (.start rfl) fun _ _ _ h => h.2
  obtain ⟨first, l, rest, s₁, -, hlabels, hfirst, -, -, hends⟩ :=
    (node_events_agree hrun' row hrow event hevent).resolve_left hdisagree
  exact ⟨_, _, labels, s, hrun', row, hrow, event, hevent, hdisagree, first, l, rest, s₁, hlabels,
    hfirst, hends⟩

end FlowPilot
