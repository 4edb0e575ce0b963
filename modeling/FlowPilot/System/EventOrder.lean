import FlowPilot.System.OutboxRows
import FlowPilot.Worker.StartedFirst

/-!
# The order of lifecycle events

In which order the events of an execution are handed to the broker. An event
of a node, or of the completion, is stored only when the delivery knows that
the started event is out (`StartedOut`); and that it is out, in the eyes of
the delivery, means that it was handed over - except in the branch in which
the delivery lost the race for the start, where it reads that the execution
is running but dispatches nothing. `StartedBeforeResume` is the condition
that it is out there, too.
-/

namespace FlowPilot

open Prog hiding pure throw bind tryCatch

/-! ## Events on the wire -/

/-- A field of the message in the buffer. -/
def Buffer.get? : Buffer → String → Option Json
  | json value, key => value.get? key
  | notJson _, _ => none

/-- The publication carries the event `name` of the execution `x`. -/
def Publication.CarriesEvent (p : Publication) (name : FlowPilotRoutingKey) (x : String) : Prop :=
  p.content.get? "eventName" = some (.str name.literal)
    ∧ (p.content.get? "payload").bind (·.get? "executionId") = some (.str x)

instance (p : Publication) (name : FlowPilotRoutingKey) (x : String) :
    Decidable (p.CarriesEvent name x) :=
  inferInstanceAs (Decidable (_ ∧ _))

theorem carriesEvent_outboxPublication {row : OutboxMessage} {now : Int}
    {name : FlowPilotRoutingKey} {x : String} :
    (outboxPublication row now).CarriesEvent name x
      ↔ row.payload.eventName = name ∧ row.payload.payload.executionId = x := by
  have hname : (outboxPublication row now).content.get? "eventName"
      = some (.str row.payload.eventName.literal) := rfl
  have hid : ((outboxPublication row now).content.get? "payload").bind (·.get? "executionId")
      = some (.str row.payload.payload.executionId) := by
    change row.payload.payload.toJson.get? "executionId" = _
    cases row.payload.payload <;> rfl
  rw [Publication.CarriesEvent, hname, hid]
  simp only [Option.some.injEq, Json.str.injEq, FlowPilotRoutingKey.literal_inj]

/-- The started event of the execution has been handed to the broker. -/
def StartedHanded (w : World) (x : String) : Prop :=
  ∃ p ∈ w.events, p.CarriesEvent .workflowExecutionStarted x

/-- A row under the key of a started event holds that event. -/
theorem LifecyclePayload.of_startedKey {payload : LifecyclePayload} {x : String}
    (h : payload.idempotencyKey = startedKey x) :
    payload.eventName = .workflowExecutionStarted ∧ payload.executionId = x := by
  have hnode : ∀ (p executionId nodeId : String), 10 ≤ p.toList.length →
      p.toList.take 10 ≠ "workflow.e".toList →
      p ++ executionId ++ ":" ++ nodeId ≠ startedKey x := by
    intro p executionId nodeId hp hne he
    rw [String.append_assoc, String.append_assoc] at he
    exact not_isLifecycleKey hp hne ⟨x, Or.inl he⟩
  cases payload with
  | started workflowId executionId => exact ⟨rfl, startedKey_inj.mp h⟩
  | completed _ executionId _ _ => exact absurd h.symm (startedKey_ne_completedKey x executionId)
  | failed _ executionId _ => exact absurd h.symm (startedKey_ne_failedKey x executionId)
  | nodeStarted _ executionId _ nodeId _ _ =>
      exact absurd h (hnode "workflow.node.execution.started:" executionId nodeId (by decide)
        (by decide))
  | nodeCompleted _ executionId _ nodeId _ _ _ =>
      exact absurd h (hnode "workflow.node.execution.completed:" executionId nodeId (by decide)
        (by decide))
  | nodeFailed _ executionId _ nodeId _ _ =>
      exact absurd h (hnode "workflow.node.execution.failed:" executionId nodeId (by decide)
        (by decide))
  | aiTraceCreated trace =>
      exact absurd ⟨x, Or.inl h⟩ (not_isLifecycleKey (p := "ai.trace.created:") (by decide)
        (by decide))

/-! ## What histories show -/

/-- The row a stored message is answered with has its key. -/
theorem run_answered_key {op : WorkerOp} {ctx : CallContext} {w w' : World} {r : op.Result}
    (h : op.run ctx w = some (r, w')) {message : WorkflowLifecycleMessage}
    (hstores : Stores op message) {row : OutboxMessage} (hrow : AnswersRow ⟨op, .ok r⟩ row) :
    row.idempotencyKey = message.idempotencyKey := by
  have hkey : ∀ {s s' : Store} {ctx : DbContext} {routingKey : FlowPilotRoutingKey}
      {row : OutboxMessage}, s.upsertOutbox ctx routingKey message = some (row, s') →
      row.idempotencyKey = message.idempotencyKey := by
    intro s s' ctx routingKey row hupsert
    rcases Store.upsertOutbox_cases hupsert with ⟨-, -, hkey⟩ | ⟨-, rfl, -⟩
    · exact hkey
    · rfl
  cases hstores with
  | upsert routingKey =>
      obtain ⟨s, hrun, -⟩ := WorkerOp.run_db h
      exact hkey (hrow ▸ hrun)
  | transaction t =>
      obtain ⟨s, hrun, -⟩ := WorkerOp.run_db h
      rcases runTransaction_cases hrun with ⟨rfl, -⟩ | ⟨_, outboxRow, -, -, rfl, hupsert⟩
      · cases hrow
      · exact Option.some.inj hrow ▸ hkey hupsert

section

variable [Runtime] {env : Environment} {C : WorkerPool → WorkerLabel → Prop} {s s' : WorkerPool}
  {l : WorkerLabel} {x : String}

theorem StartedHanded.step (h : StartedHanded s.world x)
    (hs : Pool.Step (workerSystem env) s l s') : StartedHanded s'.world x := by
  obtain ⟨p, hp, hcarries⟩ := h
  rcases events_of_step hs with heq | ⟨_, _, _, -, -, heq⟩
  · exact ⟨p, heq ▸ hp, hcarries⟩
  · exact ⟨p, heq ▸ List.mem_append_left _ hp, hcarries⟩

theorem events_of_publish {t : Nat} {p : Publication} {accepted : Bool}
    (hs : Pool.Step (workerSystem env) s (.act t ⟨.publish p, .ok accepted⟩) s')
    (hp : p.exchange = .events) : s'.world.events = s.world.events ++ [p] := by
  obtain ⟨_, _, _, -, ⟨-, ctx, hrun⟩, -⟩ := hs.act_cases
  obtain ⟨-, heq⟩ := Prod.mk.inj (Option.some.inj hrun)
  rw [← heq, World.take, hp]

/-- What the steps of a run handed to the broker is on the exchange. -/
theorem handed_of_run {w : World} {labels : List WorkerLabel}
    (hrun : Pool.Run (workerSystem env) C ⟨w, fun _ => none⟩ labels s) {t : Nat} {p : Publication}
    {accepted : Bool} (hmem : .act t ⟨.publish p, .ok accepted⟩ ∈ labels)
    (hp : p.exchange = .events) : p ∈ s.world.events := by
  induction hrun with
  | refl => cases hmem
  | step _ _ hs ih =>
      rcases List.mem_append.mp hmem with hmem | hmem
      · rcases events_of_step hs with heq | ⟨_, _, _, -, -, heq⟩
        · exact heq ▸ ih hmem
        · exact heq ▸ List.mem_append_left _ (ih hmem)
      · obtain rfl := List.mem_singleton.mp hmem
        rw [events_of_publish hs hp]
        exact List.mem_append_right _ (List.mem_singleton_self _)

/-- A delivery that has lost the race for the start reads that the execution
is running only when the started event has been handed to the broker. -/
def StartedBeforeResume (s : WorkerPool) (l : WorkerLabel) : Prop :=
  ∀ t th x row, l = .act t ⟨.db (.findExecution x), .ok (some row)⟩ → s.threads t = some th →
    LostStart x th.history → isTerminalExecutionStatus row.status = false →
    StartedHanded s.world x

/-- What the answers a thread got say about the world. -/
structure AnswerKnown (w : World) (h : WorkerHistory) (ev : WorkerEvent) : Prop where
  key : ∀ message, Stores ev.op message → ∀ row, AnswersRow ev row →
    row.idempotencyKey = message.idempotencyKey
  resumed : ∀ x row, ev = ⟨.db (.findExecution x), .ok (some row)⟩ → LostStart x h →
    isTerminalExecutionStatus row.status = false → StartedHanded w x

theorem ReachableUnder.answerKnown (h : ReachableUnder env StartedBeforeResume s) :
    ∀ t th, s.threads t = some th → Prog.Along (AnswerKnown s.world) [] th.history := by
  refine Pool.Reachable.along ?_ ?_ h
  · exact fun _ _ hs history ev hknown =>
      ⟨hknown.key, fun x row hev hlost hopen => (hknown.resumed x row hev hlost hopen).step hs⟩
  · intro s s' t info history op k reply hreach hc hth hs
    obtain ⟨_, _, _, -, hexec, -⟩ := hs.act_cases
    refine ⟨fun message hstores row hrow => ?_, fun x row hev hlost hopen => ?_⟩
    · rcases Environment.exec_cases hexec with
        ⟨-, e, rfl, -⟩ | ⟨ctx, r, hrun, ⟨rfl, -⟩ | ⟨e, rfl, -⟩⟩
      · exact absurd hrow not_answersRow_failed
      · exact run_answered_key hrun hstores hrow
      · exact absurd hrow not_answersRow_lost
    · exact (hc t _ x row (congrArg (Pool.Label.act t) hev) hth hlost hopen).step hs

omit [Runtime] in
/-- A row under the key of the started event, once published, has been handed
to the broker as that event. -/
theorem startedHanded_of_publication {w : World} {row : OutboxMessage} {now : Int}
    (hkey : row.idempotencyKey = startedKey x) (hkeyed : row.payload.Keyed)
    (hmem : outboxPublication row now ∈ w.events) : StartedHanded w x := by
  obtain ⟨hname, hid⟩ := LifecyclePayload.of_startedKey
    (hkeyed.idempotencyKey.symm.trans (row.idempotencyKey_eq.symm.trans hkey))
  exact ⟨_, hmem, carriesEvent_outboxPublication.mpr ⟨hkeyed.eventName.trans hname, hid⟩⟩

/-- What a delivery knows of the started event is true. -/
theorem StartedOut.handed {t : Nat} {th : WorkerThread} (hout : StartedOut x th.history)
    (h : ReachableUnder env StartedBeforeResume s) (hth : s.threads t = some th) :
    StartedHanded s.world x := by
  obtain ⟨w, labels, rfl, hrun⟩ := Pool.Reachable.exists_run h
  have hsound := outboxSound_of_run hrun
  have hstored : ∀ {message row}, StoredAs th.history message row →
      message.idempotencyKey = startedKey x → row.idempotencyKey = startedKey x
        ∧ row.payload.Keyed ∧ RowSeen th.history row := by
    rintro message row ⟨ev, hev, hstores, hrow⟩ hkey
    obtain ⟨_, _, -, hknown⟩ := (h.answerKnown t th hth).mem hev
    have hseen : RowSeen th.history row := ⟨ev, hev, hrow⟩
    obtain ⟨current, hcurrent, hsame⟩ := ReachableUnder.snapshots h t th hth row hseen
    refine ⟨(hknown.key message hstores row hrow).trans hkey, ?_, hseen⟩
    have hkeyed := ReachableUnder.keyed h current hcurrent
    rwa [hsame.payload_eq] at hkeyed
  cases hout with
  | @dispatched message row now hmessage hkey hpublish =>
      obtain ⟨hkey, hkeyed, -⟩ := hstored hmessage hkey
      exact startedHanded_of_publication hkey hkeyed
        (handed_of_run hrun (hsound.recorded t th hth _ hpublish) row.exchange_eq)
  | @published message row hmessage hkey hstatus =>
      obtain ⟨hkey, hkeyed, hseen⟩ := hstored hmessage hkey
      obtain ⟨t', now, hpublish⟩ := (hsound.snapshots t th hth row hseen).published hstatus
      exact startedHanded_of_publication hkey hkeyed (handed_of_run hrun hpublish row.exchange_eq)
  | resumed hresumed =>
      obtain ⟨before, row, rest, heq, hlost, hopen⟩ := hresumed
      have halong := h.answerKnown t th hth
      rw [heq] at halong
      exact (Prog.along_append.mp halong).2.1.resumed x row rfl hlost hopen

/-! ## The order -/

theorem Job.program_startedFirst :
    ∀ job : Job, Safe (StartedFirstOp job.executionId) job.program
  | .delivery message => handleDelivery_startedFirst message
  | .outboxDispatcher => outboxDispatcherCycle_startedFirst

/-- An event that comes after the start is in the outbox only when the
started event has been handed to the broker. -/
theorem ReachableUnder.startedHanded_of_row (h : ReachableUnder env StartedBeforeResume s) :
    ∀ row ∈ s.world.store.outbox, row.payload.eventName.AfterStart →
      StartedHanded s.world row.payload.payload.executionId := by
  induction h with
  | start hw =>
      subst hw
      exact fun row hrow => by cases hrow
  | @step s s' l hreach hc hs ih =>
      intro row' hrow' hlate
      rcases outboxEffect_of_step hs with ⟨heq, -⟩ | ⟨t, op, reply, rfl, heffect⟩
      · exact (ih row' (heq ▸ hrow') hlate).step hs
      · rcases heffect.origin hrow' with
          hrow | ⟨ctx, routingKey, message, hstores, rfl⟩ | ⟨row, hrow, data, -, -, rfl⟩
        · exact (ih row' hrow hlate).step hs
        · obtain ⟨info, history, k, hth, -, -⟩ := hs.act_cases
          have hobeys := Pool.Reachable.obeys (fun job => job.program_startedFirst []) hreach
          have hout := hobeys.next hth message hstores hlate
          have hevent := (ReachableUnder.outboxOp hreach).next hth |>.eventOf hstores
          refine StartedHanded.step ?_ hs
          exact hevent.executionId.symm ▸ hout.handed hreach hth
        · rw [data.apply_payload] at hlate ⊢
          exact (ih row hrow hlate).step hs

/-- The events of an execution are handed to the broker in causal order, in
every run in which a delivery that lost the race for the start finds the
execution running only after the started event: an event of a node or of the
completion comes after the started event of its execution. -/
theorem started_event_first (env : Environment) (s : WorkerPool)
    (h : ReachableUnder env StartedBeforeResume s) (before after : List Publication)
    (p : Publication) (hevents : s.world.events = before ++ p :: after)
    (name : FlowPilotRoutingKey) (x : String) (hcarries : p.CarriesEvent name x)
    (hname : name.AfterStart) :
    ∃ q ∈ before, q.CarriesEvent .workflowExecutionStarted x := by
  induction h generalizing before after with
  | start hw =>
      subst hw
      simp [World.empty] at hevents
  | @step s s' l hreach hc hs ih =>
      rcases events_of_step hs with heq | ⟨t, p', reply, rfl, hp', heq⟩
      · exact ih before after (heq ▸ hevents)
      · rw [heq] at hevents
        rcases List.eq_nil_or_concat after with rfl | ⟨after, last, rfl⟩
        · -- the event is the one this step hands over
          obtain ⟨rfl, hsame⟩ := List.append_inj' hevents rfl
          obtain rfl := List.singleton_inj.mp hsame
          obtain ⟨row, hrow, now, rfl⟩ := ReachableUnder.row_of_publish hreach hs hp'
          obtain ⟨rfl, rfl⟩ := carriesEvent_outboxPublication.mp hcarries
          exact ReachableUnder.startedHanded_of_row hreach row hrow hname
        · rw [List.concat_eq_append, ← List.cons_append, ← List.append_assoc] at hevents
          exact ih before after (List.append_inj' hevents rfl).1

end

/-- The execution that the call came too late to start, and its time. -/
def lostStart : WorkerEvent → Option (String × Int)
  | ⟨.db (.transaction t), .ok r⟩ =>
      match t.data with
      | .running startedAt => if TransitionResult.count r = 0 then some (t.id, startedAt) else none
      | _ => none
  | _ => none

theorem lostStart_iff {ev : WorkerEvent} {x : String} {startedAt : Int} :
    lostStart ev = some (x, startedAt) ↔ ∃ (t : StatusTransition) (r : TransitionResult),
      ev = ⟨.db (.transaction t), .ok r⟩ ∧ t.id = x ∧ t.data = .running startedAt
        ∧ r.count = 0 := by
  constructor
  · intro h
    unfold lostStart at h
    split at h
    · rename_i t r
      split at h
      · rename_i time hdata
        obtain ⟨hcount, heq⟩ := Option.ite_none_right_eq_some.mp h
        cases heq
        exact ⟨t, r, rfl, rfl, hdata, hcount⟩
      · cases h
    · cases h
  · rintro ⟨t, r, rfl, rfl, hdata, hcount⟩
    have hcount' : TransitionResult.count r = 0 := hcount
    simp [lostStart, hdata, hcount']

theorem exists_lostStart_iff {x : String} {h : WorkerHistory} :
    LostStart x h ↔ ∃ ev ∈ h, ∃ startedAt, lostStart ev = some (x, startedAt) := by
  constructor
  · rintro ⟨t, r, hsaw, hid, ⟨startedAt, hdata⟩, hcount⟩
    exact ⟨_, hsaw, startedAt, lostStart_iff.mpr ⟨t, r, rfl, hid, hdata, hcount⟩⟩
  · rintro ⟨ev, hev, startedAt, hlost⟩
    obtain ⟨t, r, rfl, hid, hdata, hcount⟩ := lostStart_iff.mp hlost
    exact ⟨t, r, hev, hid, ⟨startedAt, hdata⟩, hcount⟩

/-- Whether the step reads no execution after a lost race, or the started
event is out. -/
def startedBeforeResume (s : WorkerPool) : WorkerLabel → Bool
  | .act t ⟨.db (.findExecution x), _⟩ =>
      (s.world.events.any fun p => p.CarriesEvent .workflowExecutionStarted x)
        || (s.threads t).all fun th => th.history.all fun ev => !(lostStart ev).any (·.1 = x)
  | _ => true

theorem startedBeforeResume_sound {s : WorkerPool} {l : WorkerLabel}
    (h : startedBeforeResume s l = true) : StartedBeforeResume s l := by
  rintro t th x row rfl hth hlost -
  obtain ⟨ev, hev, startedAt, hlost⟩ := exists_lostStart_iff.mp hlost
  rcases (Bool.or_eq_true _ _).mp h with hstarted | hkept
  · obtain ⟨p, hp, hcarries⟩ := List.any_eq_true.mp hstarted
    exact ⟨p, hp, of_decide_eq_true hcarries⟩
  · rw [hth] at hkept
    have hnot := List.all_eq_true.mp hkept ev hev
    simp [hlost] at hnot

/-- The command is delivered twice, and delivery 1, which makes its first call
with index `i`, loses the race. Delivery 0 stops when it has dispatched the
started event; 1 runs the nodes. -/
def racedDeliveries [Runtime] (i : Nat) : List Turn :=
  [.arrive (newMessage defaultWorkflowDefinition), .deliver 0, .deliver 1,
    .run 0 2 0 fun _ => true, .run 1 2 i fun _ => true, .run 0 4 4 fun _ => true,
    .run 1 40 10 fun _ => true]

/-- Whether delivery 0 is not over, and 1 has returned after a lost race. -/
def hasRaced (s : WorkerPool) : Bool :=
  ((s.threads 0).any fun th => th.prog.ended?.isNone)
    && (s.threads 1).any fun th => th.prog.returned
      && th.history.any fun ev => (lostStart ev).any (·.1 = "execution")

theorem raced_of_hasRaced {s : WorkerPool} (h : hasRaced s = true) :
    (∃ th, s.threads 0 = some th ∧ th.prog.ended? = none)
      ∧ ∃ th, s.threads 1 = some th ∧ LostStart "execution" th.history ∧ th.prog = .pure () := by
  simp only [hasRaced, Bool.and_eq_true, Option.any_eq_true] at h
  obtain ⟨⟨th₀, hth₀, hopen⟩, th₁, hth₁, hover, hlost⟩ := h
  exact ⟨⟨th₀, hth₀, Option.isNone_iff_eq_none.mp hopen⟩, th₁, hth₁,
    exists_lostStart_iff.mpr (by simpa [Option.any_eq_true] using hlost), eq_pure_of_returned hover⟩

/-- The theorem after a lost race. Delivery 1 finds the execution running when
delivery 0 has dispatched the started event. -/
theorem started_event_first_raced :
    ∃ (_ : Runtime) (env : Environment) (s : WorkerPool) (before after : List Publication)
      (p : Publication), ReachableUnder env StartedBeforeResume s
      ∧ (∃ th, s.threads 0 = some th ∧ th.prog.ended? = none)
      ∧ (∃ th, s.threads 1 = some th ∧ LostStart "execution" th.history ∧ th.prog = .pure ())
      ∧ s.world.events = before ++ p :: after ∧ p.CarriesEvent .nodeExecutionStarted "execution"
      ∧ ∃ q ∈ before, q.CarriesEvent .workflowExecutionStarted "execution" := by
  let _ : Runtime := .sample false
  obtain ⟨s, hs, hcheck⟩ := exists_reachable_of_checked defaultWorkflowDefinition 2
    (racedDeliveries 2) startedBeforeResume (C := StartedBeforeResume) (fun _ _ _ _ _ => nofun)
    (fun _ _ _ => startedBeforeResume_sound)
    (P := fun s => hasRaced s
      && s.world.events.any fun p => p.CarriesEvent .nodeExecutionStarted "execution")
    (by decide +kernel)
  obtain ⟨hraced, hnode⟩ := (Bool.and_eq_true _ _).mp hcheck
  obtain ⟨hopen, hlost⟩ := raced_of_hasRaced hraced
  obtain ⟨p, hp, hcarries⟩ := List.any_eq_true.mp hnode
  obtain ⟨before, after, hevents⟩ := List.append_of_mem hp
  have hcarries := of_decide_eq_true hcarries
  exact ⟨_, _, s, before, after, p, hs, hopen, hlost, hevents, hcarries,
    started_event_first _ s hs before after p hevents _ _ hcarries trivial⟩

/-- The command is delivered twice, and delivery 1 loses the race. Delivery 0
has not dispatched the started event yet when 1 starts the first node. -/
def twoDeliveries [Runtime] : List Turn :=
  [.arrive (newMessage defaultWorkflowDefinition), .deliver 0, .deliver 1,
    .run 0 2 0 fun _ => true, .run 1 2 2 fun _ => true, .run 0 2 4 fun _ => true,
    .run 1 9 6 fun _ => true]

/-- The event of the node is then the first one the broker gets. -/
theorem started_event_not_first :
    ∃ (_ : Runtime) (env : Environment) (s : WorkerPool) (before after : List Publication)
      (p : Publication), ReachableSystem env s ∧ s.world.events = before ++ p :: after
      ∧ p.CarriesEvent .nodeExecutionStarted "execution"
      ∧ ∀ q ∈ before, ¬ q.CarriesEvent .workflowExecutionStarted "execution" := by
  let _ : Runtime := .sample false
  obtain ⟨s, -, -, hs, -, hP⟩ := exists_run_of_turns defaultWorkflowDefinition twoDeliveries []
    (fun _ => true) (C := fun _ _ => True) (fun _ => trivial) (fun _ _ _ => trivial)
    (P := fun _ s _ =>
      s.world.events.any (fun p => p.CarriesEvent .nodeExecutionStarted "execution")
        && s.world.events.all fun p => ¬ p.CarriesEvent .workflowExecutionStarted "execution")
    (by decide +kernel)
  obtain ⟨hnode, hstarted⟩ := (Bool.and_eq_true _ _).mp hP
  obtain ⟨p, hp, hcheck⟩ := List.any_eq_true.mp hnode
  obtain ⟨before, after, hevents⟩ := List.append_of_mem hp
  refine ⟨_, _, s, before, after, p, hs, hevents, of_decide_eq_true hcheck, fun q hq => ?_⟩
  exact of_decide_eq_true (List.all_eq_true.mp hstarted q (hevents ▸ List.mem_append_left _ hq))

end FlowPilot
