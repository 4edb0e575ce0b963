import FlowPilot.Lib.Run
import FlowPilot.System.Invariants

/-!
# Scripted runs

Runs of the system that can be evaluated. In a scripted run every call takes
effect and is answered, executors sign what they are given (`signed`), and the
script decides which publishes find room in the broker's buffer; so it needs
no more than a `Bool` for each call. `reachable_delivery` and
`exists_trace_of_script` turn what was evaluated into a run of the system, or
of one program.
-/

namespace FlowPilot

open Prog hiding pure throw bind tryCatch

/-! ## Scripts -/

/-- The clock shows the number of the call, and ids are made of it. -/
def scriptContext (accepted : Nat → Bool) (i : Nat) : CallContext where
  now := i
  uuid := String.ofList (List.replicate (i + 1) 'u')
  rank _ := 0
  accepted := accepted i
  output := []

/-- What an executor answers. -/
def WorkerOp.signedOutput : WorkerOp → Record
  | .executeWorkflowNode node context => signed node context.input
  | _ => []

def scripted (accepted : Nat → Bool) (i : Nat) (op : WorkerOp) (w : World) :
    Option (Reply JsError op.Result × World) :=
  (op.run { scriptContext accepted i with output := op.signedOutput } w).map fun (r, w') =>
    (.ok r, w')

/-- The environment of scripted runs: executions are created from `row`, and
no foreign messages arrive. -/
def scriptEnvironment (row : WorkflowExecutionRow) : Environment where
  executor node context output := output = signed node context.input
  creates _ row' := row' = row
  arrives _ := False

theorem scripted_sound {row : WorkflowExecutionRow} {accepted : Nat → Bool} (i : Nat)
    (op : WorkerOp) (w : World) (reply : Reply JsError op.Result) (w' : World)
    (h : scripted accepted i op w = some (reply, w')) :
    (scriptEnvironment row).exec op w reply w' := by
  obtain ⟨⟨r, w₁⟩, hrun, heq⟩ := Option.map_eq_some_iff.mp h
  cases heq
  refine ⟨?_, _, hrun⟩
  cases op with
  | executeWorkflowNode node context =>
      by_cases htype : node.type = .manualTrigger
      · exact Or.inl htype
      · obtain ⟨hout, -⟩ := Prod.mk.inj (Option.some.inj hrun)
        exact Or.inr (hout.symm.trans (if_neg htype))
  | _ => trivial

/-- The state of a program after a scripted run of at most `n` calls. -/
def script {α : Type} (accepted : Nat → Bool) (n i : Nat) (p : Worker α) (w : World) :
    Option (WorkerHistory × Worker α × World) :=
  runCalls (scripted accepted) n i p w

section

variable {row : WorkflowExecutionRow} {accepted : Nat → Bool} {n i : Nat}

/-- What a script computes is a run. -/
theorem script_sound (row : WorkflowExecutionRow) {α : Type} {events : WorkerHistory}
    {p q : Worker α} {w w' : World}
    (hscript : FlowPilot.script accepted n i p w = some (events, q, w')) :
    After p events q ∧ Replays (scriptEnvironment row).exec w events w' :=
  runCalls_sound scripted_sound hscript

/-- A script that runs a program to its end shows that there is a complete
run with the property checked. -/
theorem exists_trace_of_script (row : WorkflowExecutionRow) (accepted : Nat → Bool) (n i : Nat)
    {α : Type} {p : Worker α} {w : World}
    {P : WorkerHistory → World → Prop} [∀ events w', Decidable (P events w')]
    (h : (FlowPilot.script accepted n i p w).any
      (fun (events, q, w') => q.ended?.isSome && decide (P events w')) = true) :
    ∃ events out w', Trace p events out
      ∧ Replays (scriptEnvironment row).exec w events w' ∧ P events w' := by
  obtain ⟨⟨events, q, w'⟩, hscript, hcheck⟩ := (Option.any_eq_true _ _).mp h
  simp only [Bool.and_eq_true, decide_eq_true_eq] at hcheck
  obtain ⟨out, hq⟩ := Option.isSome_iff_exists.mp hcheck.1
  obtain ⟨hafter, hreplays⟩ := script_sound row hscript
  exact ⟨events, out, w', trace_of_after hafter (trace_of_ended? hq), hreplays, hcheck.2⟩

/-- When every publish finds room, no call of a script fails. -/
theorem script_succeeds {α : Type} {events : WorkerHistory} {p q : Worker α} {w w' : World}
    (hscript : FlowPilot.script (fun _ => true) n i p w = some (events, q, w')) :
    ∀ ev ∈ events, CallSucceeded ev := by
  have hrun : After p events q ∧ Replays
      (fun op w reply w' => ∃ i, scripted (fun _ => true) i op w = some (reply, w')) w events w' :=
    runCalls_sound (fun i _ _ _ _ h => ⟨i, h⟩) hscript
  refine replays_events (fun op w reply w' h => ?_) hrun.2
  obtain ⟨i, h⟩ := h
  obtain ⟨⟨r, w₁⟩, hrun, heq⟩ := Option.map_eq_some_iff.mp h
  cases heq
  cases op with
  | publish p =>
      cases hrun
      exact fun _ => rfl
  | _ => trivial

end

/-! ## A requested execution -/

theorem newRow_isNew (definition : Json) : (newRow definition).IsNew :=
  ⟨rfl, rfl, rfl, rfl, rfl⟩

/-- A world in which only this execution exists. -/
def World.withExecution (execution : WorkflowExecution) : World :=
  { World.empty with
    store := { Store.empty with
      executions := Function.update (fun _ => none) execution.id
        (some execution.toWorkflowExecutionRow) } }

/-- The same, after the request. -/
def World.requesting [Runtime] (definition : Json) : World :=
  { World.withExecution (newExecution definition) with
    commands := [newMessage definition], requested := ["execution"] }

/-- Whether the row of an execution has this status. -/
def World.hasStatus (w : World) (id : String) (status : ExecutionStatus) : Bool :=
  (w.store.executions id).any (·.status = status)

theorem World.hasStatus_iff {w : World} {id : String} {status : ExecutionStatus} :
    w.hasStatus id status = true
      ↔ ∃ row, w.store.executions id = some row ∧ row.status = status := by
  simp [World.hasStatus, Option.any_eq_true]

/-- Whether the next call publishes to the dead-letter exchange. -/
def deadLettersNext : Worker Unit → Bool
  | .call (.publish p) _ => p.exchange = .dlx
  | _ => false

theorem exists_publish_of_deadLettersNext {q : Worker Unit} (h : deadLettersNext q = true) :
    ∃ p k, q = .call (.publish p) k ∧ p.exchange = .dlx := by
  unfold deadLettersNext at h
  split at h
  · exact ⟨_, _, rfl, of_decide_eq_true h⟩
  · cases h

/-! ## Deliveries one after another -/

/-- A delivery is started only when the others are settled. -/
def OneAtATime (s : WorkerPool) (l : WorkerLabel) : Prop :=
  ∀ t message, l = .spawn t (.delivery message) →
    ∀ t' th, s.threads t' = some th → Settled th.history

/-- The next command a worker is handed: one from the queue, else a retry
copy whose time is over. -/
def World.nextCommand (w : World) : Option (ConsumeMessage × World) :=
  match w.commands, w.retries with
  | message :: rest, _ => some (message, { w with commands := rest })
  | [], message :: rest =>
      some ({ message with routingKey := FlowPilotRoutingKey.workflowExecutionRequested.literal },
        { w with retries := rest })
  | [], [] => none

/-- Before it can be taken from there, the time of a retry copy ends. -/
def World.expiry (w : World) : List WorkerLabel := if w.commands.isEmpty then [.env] else []

/-- The steps of a delivery of the next command, which makes these calls. -/
def World.deliveryLabels (w : World) (k : Nat) (message : ConsumeMessage)
    (events : WorkerHistory) : List WorkerLabel :=
  w.expiry ++ .spawn k (.delivery message) :: events.map (.act k)

/-- The next command is handled, to the end. -/
def deliver [Runtime] (accepted : Nat → Bool) (i : Nat) (w : World) : Option World :=
  w.nextCommand.bind fun (message, w₁) =>
    (script accepted 100 i (handleDelivery message) w₁).bind fun (_, q, w₂) =>
      match q with
      | .pure () => some w₂
      | _ => none

/-- One delivery for each script. -/
def serve [Runtime] : List (Nat → Bool) → Nat → World → Option World
  | [], _, w => some w
  | accepted :: scripts, i, w => (deliver accepted i w).bind (serve scripts (i + 100))

/-- The threads of the first `k` numbers have settled their deliveries, and
there are no others. -/
structure Idle (k : Nat) (s : WorkerPool) : Prop where
  settled : ∀ t th, s.threads t = some th → Settled th.history
  free : ∀ t, k ≤ t → s.threads t = none

section

variable [Runtime] {env : Environment} {row : WorkflowExecutionRow}
  {C : WorkerPool → WorkerLabel → Prop} {s : WorkerPool} {t k n i : Nat}
  {message : ConsumeMessage} {accepted : Nat → Bool}

omit [Runtime] in
theorem oneAtATime_env (s : WorkerPool) : OneAtATime s .env := by
  intro t message hl
  cases hl

omit [Runtime] in
theorem oneAtATime_act (s : WorkerPool) (t : Nat) (ev : WorkerEvent) :
    OneAtATime s (.act t ev) := by
  intro t message hl
  cases hl

omit [Runtime] in
theorem Idle.oneAtATime (hidle : Idle k s) (l : WorkerLabel) : OneAtATime s l :=
  fun _ _ _ t th hth => hidle.settled t th hth

/-- Once the execution is created and requested, its command waits. -/
theorem run_requesting (definition : Json) (hcreates : env.creates "execution" (newRow definition))
    (hC : ∀ s, C s .env) :
    Pool.Run (workerSystem env) C ⟨.empty, fun _ => none⟩ [.env, .env]
      ⟨.requesting definition, fun _ => none⟩ := by
  have hcreated : Pool.Run (workerSystem env) C ⟨.empty, fun _ => none⟩ [.env]
      ⟨.withExecution (newExecution definition), fun _ => none⟩ :=
    .step .refl (hC _) (.env (.createExecution rfl (newRow_isNew definition) hcreates))
  have hrequest : EnvStep env
      (.withExecution (newExecution definition)) (.requesting definition) :=
    @EnvStep.requestExecution _ _ _ (newExecution definition) "command"
      "1970-01-01T00:00:00.000Z" "user" (by rfl) (by simp [World.withExecution, World.empty])
  exact .step hcreated (hC _) (.env hrequest)

theorem reachable_requesting (definition : Json)
    (hcreates : env.creates "execution" (newRow definition)) (hC : ∀ s, C s .env) :
    ReachableUnder env C ⟨.requesting definition, fun _ => none⟩ :=
  (run_requesting definition hcreates hC).reachable (.start rfl)

omit [Runtime] in
theorem Idle.start (w : World) : Idle 0 ⟨w, fun _ => none⟩ :=
  ⟨nofun, fun _ _ => rfl⟩

omit [Runtime] in
theorem Idle.of_threads {s' : WorkerPool} (hidle : Idle k s) (h : s'.threads = s.threads) :
    Idle k s' :=
  ⟨fun t th hth => hidle.settled t th (h ▸ hth), fun t ht => h ▸ hidle.free t ht⟩

/-- The next command can be taken by a delivery. -/
theorem startJob_of_nextCommand {w₁ : World} (hC : ∀ s, C s .env)
    (h : s.world.nextCommand = some (message, w₁)) :
    ∃ s₁, Pool.Run (workerSystem env) C s s.world.expiry s₁ ∧ s₁.threads = s.threads
      ∧ StartJob (.delivery message) s₁.world w₁ := by
  obtain ⟨⟨store, commands, retries, deadLetters, events, requested⟩, threads⟩ := s
  cases commands with
  | cons first rest =>
      cases h
      exact ⟨_, .refl, rfl, @StartJob.delivery _ [] rest _ rfl⟩
  | nil =>
      cases retries with
      | nil => cases h
      | cons first rest =>
          cases h
          have hexpires := @EnvStep.retryExpires _ env
            ⟨store, [], first :: rest, deadLetters, events, requested⟩ [] rest first rfl
          exact ⟨_, .step .refl (hC _) (.env hexpires), rfl, @StartJob.delivery _ [] [] _ rfl⟩

/-- A delivery takes the next command and runs for a while, alone. -/
theorem run_delivery {w₁ w' : World} {events : WorkerHistory} {q : Worker Unit}
    (hfree : s.threads k = none) (hC : ∀ s, C s .env)
    (hspawn : ∀ s', s'.threads = s.threads → C s' (.spawn k (.delivery message)))
    (hact : ∀ s', (∀ t, t ≠ k → s'.threads t = s.threads t) → ∀ ev ∈ events, C s' (.act k ev))
    (hnext : s.world.nextCommand = some (message, w₁))
    (hrun : After (handleDelivery message) events q ∧ Replays env.exec w₁ events w') :
    Pool.Run (workerSystem env) C s (s.world.deliveryLabels k message events)
      ⟨w', Function.update s.threads k (some ⟨.delivery message, events, q⟩)⟩ := by
  obtain ⟨⟨w, threads⟩, hexpiry, rfl, hstart⟩ := startJob_of_nextCommand hC hnext
  have hspawned : Pool.Run (workerSystem env) C s (s.world.expiry ++ [.spawn k (.delivery message)])
      ⟨w₁, Function.update s.threads k (some ⟨.delivery message, [], handleDelivery message⟩)⟩ :=
    .step hexpiry (hspawn _ rfl) (.spawn hfree hstart)
  have hdone := hspawned.trans
    (Pool.Run.after hrun.1 (Function.update_self ..) hrun.2 fun s' hothers ev hev =>
      hact s' (fun t ht => (hothers t ht).trans (Function.update_of_ne ht ..)) ev hev)
  simpa [World.deliveryLabels] using hdone

theorem reachable_delivery {w₁ w' : World} {events : WorkerHistory} {q : Worker Unit}
    (hs : ReachableUnder env C s) (hfree : s.threads k = none) (hC : ∀ s, C s .env)
    (hspawn : ∀ s', s'.threads = s.threads → C s' (.spawn k (.delivery message)))
    (hact : ∀ s', (∀ t, t ≠ k → s'.threads t = s.threads t) → ∀ ev ∈ events, C s' (.act k ev))
    (hnext : s.world.nextCommand = some (message, w₁))
    (hrun : After (handleDelivery message) events q ∧ Replays env.exec w₁ events w') :
    ReachableUnder env C
      ⟨w', Function.update s.threads k (some ⟨.delivery message, events, q⟩)⟩ :=
  (run_delivery hfree hC hspawn hact hnext hrun).reachable hs

/-- A delivery that has returned is settled. -/
theorem settled_of_returned (hs : ReachableUnder env C s) {events : WorkerHistory}
    (hth : s.threads t = some ⟨.delivery message, events, .pure ()⟩) : Settled events :=
  ((ReachableUnder.reached hs).conform t _ hth).rest

/-- After it no delivery is open. -/
theorem Idle.returned {events : WorkerHistory} {w' : World} (hidle : Idle k s)
    (hdone : ReachableUnder env C
      ⟨w', Function.update s.threads k (some ⟨.delivery message, events, .pure ()⟩)⟩) :
    Idle (k + 1)
      ⟨w', Function.update s.threads k (some ⟨.delivery message, events, .pure ()⟩)⟩ := by
  refine ⟨fun t th hth => ?_, fun t ht => ?_⟩
  · by_cases htk : t = k
    · subst htk
      simp only [Function.update_self] at hth
      obtain rfl := Option.some.inj hth
      exact settled_of_returned hdone (Function.update_self ..)
    · exact hidle.settled t th (by simpa [htk] using hth)
  · have htk : t ≠ k := by omega
    simpa [htk] using hidle.free t (by omega)

/-- One delivery, none of whose calls fails: what was checked of it is true
of a reachable state. -/
theorem exists_reachable_of_delivery (definition : Json) {C : WorkerPool → WorkerLabel → Prop}
    (henv : ∀ s, C s .env) (hspawn : ∀ s message, Idle 0 s → C s (.spawn 0 (.delivery message)))
    (hact : ∀ s ev, CallSucceeded ev → C s (.act 0 ev)) {P : World → Bool}
    (h : (FlowPilot.script (fun _ => true) 100 0 (handleDelivery (newMessage definition))
      { World.requesting definition with commands := [] }).any
        (fun (_, q, w') => q.returned && P w') = true) :
    ∃ s, ReachableUnder (scriptEnvironment (newRow definition)) C s
      ∧ (∀ t th, s.threads t = some th → Settled th.history) ∧ P s.world = true := by
  obtain ⟨⟨events, q, w'⟩, hscript, h⟩ := (Option.any_eq_true _ _).mp h
  obtain ⟨hreturned, hP⟩ := (Bool.and_eq_true _ _).mp h
  obtain rfl := eq_pure_of_returned hreturned
  have hidle : Idle 0 ⟨.requesting definition, fun _ => none⟩ := .start _
  have hdone := reachable_delivery (reachable_requesting definition rfl henv) rfl henv
    (fun s h => hspawn s _ (hidle.of_threads h))
    (fun s _ ev hev => hact s ev (script_succeeds hscript ev hev)) rfl
    (script_sound (newRow definition) hscript)
  exact ⟨_, hdone, (hidle.returned hdone).settled, hP⟩

theorem deliver_reachable {i k : Nat} {w' : World}
    (hs : ReachableUnder (scriptEnvironment row) OneAtATime s) (hidle : Idle k s)
    (h : deliver accepted i s.world = some w') :
    ∃ s', ReachableUnder (scriptEnvironment row) OneAtATime s' ∧ Idle (k + 1) s'
      ∧ s'.world = w' := by
  obtain ⟨⟨message, w₁⟩, hnext, h⟩ := Option.bind_eq_some_iff.mp h
  obtain ⟨⟨events, q, w₂⟩, hscript, h⟩ := Option.bind_eq_some_iff.mp h
  have hdone := reachable_delivery hs (hidle.free k (Nat.le_refl k)) oneAtATime_env
    (fun s h => (hidle.of_threads h).oneAtATime _) (fun s _ ev _ => oneAtATime_act s k ev) hnext
    (script_sound row hscript)
  cases q with
  | pure u =>
      cases h
      exact ⟨_, hdone, hidle.returned hdone, rfl⟩
  | throw e => cases h
  | call op c => cases h

theorem serve_reachable : ∀ {scripts : List (Nat → Bool)} {i k : Nat} {s : WorkerPool}
    {w' : World}, ReachableUnder (scriptEnvironment row) OneAtATime s → Idle k s →
    serve scripts i s.world = some w' →
    ∃ s' k', ReachableUnder (scriptEnvironment row) OneAtATime s' ∧ Idle k' s' ∧ s'.world = w'
  | [], _, k, s, _, hs, hidle, h => ⟨s, k, hs, hidle, Option.some.inj h⟩
  | accepted :: scripts, i, k, s, w', hs, hidle, h => by
      obtain ⟨w₁, hdeliver, hserve⟩ := Option.bind_eq_some_iff.mp h
      obtain ⟨s₁, hs₁, hidle₁, rfl⟩ := deliver_reachable hs hidle hdeliver
      exact serve_reachable hs₁ hidle₁ hserve

theorem ReachableUnder.system {env : Environment} (hs : ReachableUnder env C s) :
    ReachableSystem env s :=
  Pool.Reachable.mono (fun _ _ _ _ => trivial) hs

/-- The deliveries of `scripts` one after another, and then one that need
not end: what was checked of it is true of a reachable state. -/
theorem exists_reachable_of_serve (definition : Json) (scripts : List (Nat → Bool))
    (accepted : Nat → Bool) (n : Nat) {P : ConsumeMessage → Worker Unit → World → Bool}
    (h : ((serve scripts 0 (.requesting definition)).bind World.nextCommand).any
      (fun (message, w₁) => (script accepted n (100 * scripts.length)
        (handleDelivery message) w₁).any fun (_, q, w') => P message q w') = true) :
    ∃ s k message events q,
      ReachableUnder (scriptEnvironment (newRow definition)) OneAtATime s
      ∧ s.threads k = some ⟨.delivery message, events, q⟩ ∧ P message q s.world = true
      ∧ ∀ t th, t ≠ k → s.threads t = some th → Settled th.history := by
  obtain ⟨⟨message, w₁⟩, hserve, h⟩ := (Option.any_eq_true _ _).mp h
  obtain ⟨⟨events, q, w'⟩, hscript, hP⟩ := (Option.any_eq_true _ _).mp h
  obtain ⟨w, hserve, hnext⟩ := Option.bind_eq_some_iff.mp hserve
  obtain ⟨s, k, hs, hidle, rfl⟩ := serve_reachable
    (reachable_requesting definition rfl oneAtATime_env) (.start _) hserve
  have hdone := reachable_delivery hs (hidle.free k (Nat.le_refl k)) oneAtATime_env
    (fun s h => (hidle.of_threads h).oneAtATime _) (fun s _ ev _ => oneAtATime_act s k ev) hnext
    (script_sound (newRow definition) hscript)
  refine ⟨_, k, message, events, q, hdone, Function.update_self .., hP, fun t th ht hth => ?_⟩
  exact hidle.settled t th (by simpa [ht] using hth)

end

/-- A single delivery can complete its execution. -/
theorem exists_succeeded :
    let _ : Runtime := .sample false
    ∃ s row, ReachableSystem (scriptEnvironment (newRow defaultWorkflowDefinition)) s
      ∧ s.world.store.executions "execution" = some row ∧ row.status = .succeeded := by
  intro _
  obtain ⟨s, k, message, events, q, hs, -, hsucceeded, -⟩ :=
    exists_reachable_of_serve defaultWorkflowDefinition [] (fun _ => true) 100
      (P := fun _ _ w => w.hasStatus "execution" .succeeded) (by decide +kernel)
  obtain ⟨row, hrow, hstatus⟩ := World.hasStatus_iff.mp hsucceeded
  exact ⟨s, row, hs.system, hrow, hstatus⟩

end FlowPilot
