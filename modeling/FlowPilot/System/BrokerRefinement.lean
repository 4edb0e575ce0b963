import FlowPilot.System.Broker

/-!
# The broker refines the lists

The system over the broker refines `workerSystem`: what its queues hold is
what the lists hold (`Represents`), and its threads are the same. So whatever
holds of the threads and the store in every reachable state of the one system
holds in the other. No declaration is refused on the way, in whatever order
the services start, and nothing that they publish is lost.
-/

namespace FlowPilot

open Prog hiding pure throw bind tryCatch

/-! ## What the broker holds -/

/-- The queues of the broker hold what the lists of the world hold. What was
consumed for good still counts as published. -/
structure Represents (c : BrokerWorld) (w : World) : Prop where
  store : w.store = c.store
  requested : w.requested = c.requested
  commands : (c.broker.messages commandQueue).Perm w.commands
  retries : (c.broker.contents retryQueues).Perm w.retries
  deadLetters : (c.consumed deadLetterQueue ++ c.broker.messages deadLetterQueue).Perm
    (w.deadLetters.map (·.toMessage))
  events : ∀ queue ∈ FlowPilotQueue.forEvents,
    (c.consumed queue.literal ++ c.broker.messages queue.literal).Perm
      (((w.events ++ c.announced).filter (·.routedTo queue)).map (·.toMessage))

theorem represents_empty : Represents .empty .empty where
  store := rfl
  requested := rfl
  commands := .refl _
  retries := .refl _
  deadLetters := .refl _
  events _ _ := .refl _

/-- Where a publication is meant to go. -/
def Publication.Meant (p : Publication) : Prop :=
  match p.exchange with
  | .retry => ∃ retryConfig ∈ retryQueueConfig, p.routingKey = retryConfig.routingKey
  | .commands | .dlx => p.routingKey = requestedKey
  | .events => True

theorem eventQueue_ne : ∀ queue ∈ FlowPilotQueue.forEvents, queue.literal ≠ commandQueue
    ∧ queue.literal ≠ deadLetterQueue ∧ queue.literal ∉ retryQueues := by
  decide

section

variable {p : Publication}

theorem Publication.Meant.commands (h : p.Meant) (hp : p.exchange = .commands) (queue : String) :
    p.destinedTo queue = decide (queue = commandQueue) := by
  simp only [Publication.Meant, hp] at h
  simp [Publication.destinedTo, hp, h]

theorem Publication.Meant.dlx (h : p.Meant) (hp : p.exchange = .dlx) (queue : String) :
    p.destinedTo queue = decide (queue = deadLetterQueue) := by
  simp only [Publication.Meant, hp] at h
  simp [Publication.destinedTo, hp, h]

theorem Publication.Meant.retry (h : p.Meant) (hp : p.exchange = .retry) :
    ∃ retryQueue ∈ retryQueues, ∀ queue, p.destinedTo queue = decide (queue = retryQueue) := by
  have hunique : ∀ retryConfig ∈ retryQueueConfig, ∀ retryConfig' ∈ retryQueueConfig,
      retryConfig.routingKey = retryConfig'.routingKey
        → retryConfig.queue = retryConfig'.queue := by
    decide
  simp only [Publication.Meant, hp] at h
  obtain ⟨retryConfig, hmem, hkey⟩ := h
  refine ⟨retryConfig.queue, List.mem_map_of_mem hmem, fun queue => ?_⟩
  rw [Bool.eq_iff_iff]
  simp only [Publication.destinedTo, hp, List.any_eq_true, Bool.and_eq_true, decide_eq_true_eq]
  constructor
  · rintro ⟨retryConfig', hmem', rfl, hkey'⟩
    exact hunique _ hmem' _ hmem (hkey'.symm.trans hkey)
  · rintro rfl
    exact ⟨retryConfig, hmem, rfl, hkey⟩

/-- Events go to the queues that are bound for them, and nowhere else. -/
theorem destinedTo_events (hp : p.exchange = .events) :
    (∀ queue ∈ FlowPilotQueue.forEvents, p.destinedTo queue.literal = p.routedTo queue)
    ∧ ∀ queue ∈ commandQueue :: deadLetterQueue :: retryQueues, p.destinedTo queue = false := by
  have hinjective : ∀ queue ∈ FlowPilotQueue.forEvents, ∀ queue' ∈ FlowPilotQueue.forEvents,
      queue.literal = queue'.literal → queue = queue' := by
    decide
  have hothers : ∀ queue ∈ commandQueue :: deadLetterQueue :: retryQueues,
      ∀ queue' ∈ FlowPilotQueue.forEvents, queue ≠ queue'.literal := by
    decide
  refine ⟨fun queue hqueue => ?_, fun queue hqueue => ?_⟩
  · rw [Bool.eq_iff_iff]
    simp only [Publication.destinedTo, hp, List.any_eq_true, Bool.and_eq_true, decide_eq_true_eq]
    constructor
    · rintro ⟨queue', hqueue', hliteral, hrouted⟩
      rwa [hinjective queue hqueue queue' hqueue' hliteral]
    · exact fun hrouted => ⟨queue, hqueue, rfl, hrouted⟩
  · rw [← Bool.not_eq_true]
    simp only [Publication.destinedTo, hp, List.any_eq_true, Bool.and_eq_true, decide_eq_true_eq]
    rintro ⟨queue', hqueue', hliteral, -⟩
    exact hothers queue hqueue queue' hqueue' hliteral

end

namespace TopologySound

variable {c : BrokerWorld} {service : Service} {p : Publication} {message : ConsumeMessage}

/-- What is published once all is declared goes where it is destined. -/
theorem publish_eq (h : TopologySound c) (hdeclared : c.Declared service)
    (hcovers : service.Covers p.exchange) :
    c.broker.publish p.exchange p.routingKey message = some { c.broker with
      messages := fun queue =>
        c.broker.messages queue ++ (if p.destinedTo queue then [message] else []) } := by
  rw [Amqp.Broker.publish_of_mem (hdeclared _ hcovers.1)]
  congr 2
  funext queue
  rw [Amqp.Topology.routes_eq h.within fun binding hmem hexchange =>
    hdeclared _ (hcovers.2 binding hmem hexchange), routesBy_topology]

/-- A single queue gets it. -/
theorem publish_eq_enqueue (h : TopologySound c) (hdeclared : c.Declared service)
    {exchange : FlowPilotExchange} (hcovers : service.Covers exchange) {key queue : String}
    (hroutes : ∀ queue', Amqp.routesBy topology.bindings exchange key queue'
      = decide (queue' = queue)) :
    c.broker.publish exchange key message = some (c.broker.enqueue queue message) := by
  refine Amqp.Broker.publish_eq_enqueue (hdeclared _ hcovers.1) fun queue' => ?_
  rw [Amqp.Topology.routes_eq h.within fun binding hmem hexchange =>
    hdeclared _ (hcovers.2 binding hmem hexchange), hroutes]

end TopologySound

namespace Represents

variable {c : BrokerWorld} {w : World}

/-- The queue of the worker holds other commands. -/
theorem setCommands (h : Represents c w) {messages commands : List ConsumeMessage}
    (hperm : messages.Perm commands) :
    Represents { c with broker := c.broker.setQueue commandQueue messages }
      { w with commands } where
  store := h.store
  requested := h.requested
  commands := by simpa using hperm
  retries := by
    rw [Amqp.Broker.contents_setQueue_of_not_mem commandQueue_not_mem]
    exact h.retries
  deadLetters := by
    rw [Amqp.Broker.setQueue_messages_of_ne (by decide)]
    exact h.deadLetters
  events queue hqueue := by
    rw [Amqp.Broker.setQueue_messages_of_ne (eventQueue_ne queue hqueue).1]
    exact h.events queue hqueue

/-- A retry queue holds other copies. -/
theorem setRetries (h : Represents c w) {queue : String} (hqueue : queue ∈ retryQueues)
    {messages retries : List ConsumeMessage}
    (hperm : (w.retries ++ messages).Perm (retries ++ c.broker.messages queue)) :
    Represents { c with broker := c.broker.setQueue queue messages } { w with retries } where
  store := h.store
  requested := h.requested
  commands := by
    have hother : commandQueue ≠ queue := fun heq => commandQueue_not_mem (heq ▸ hqueue)
    rw [Amqp.Broker.setQueue_messages_of_ne hother]
    exact h.commands
  retries := by
    have hcontents : ((c.broker.setQueue queue messages).contents retryQueues
        ++ c.broker.messages queue).Perm (c.broker.contents retryQueues ++ messages) :=
      Amqp.Broker.contents_setQueue retryQueues_nodup hqueue
    exact (List.perm_append_right_iff _).mp
      (hcontents.trans ((h.retries.append_right _).trans hperm))
  deadLetters := by
    have hother : deadLetterQueue ≠ queue := fun heq => deadLetterQueue_not_mem (heq ▸ hqueue)
    rw [Amqp.Broker.setQueue_messages_of_ne hother]
    exact h.deadLetters
  events eventQueue hevents := by
    have hother : eventQueue.literal ≠ queue :=
      fun heq => (eventQueue_ne eventQueue hevents).2.2 (heq ▸ hqueue)
    rw [Amqp.Broker.setQueue_messages_of_ne hother]
    exact h.events eventQueue hevents

/-- The dead-letter queue holds one message more. -/
theorem deadLetter (h : Represents c w) (p : Publication) :
    Represents { c with broker := c.broker.enqueue deadLetterQueue p.toMessage }
      { w with deadLetters := w.deadLetters ++ [p] } where
  store := h.store
  requested := h.requested
  commands := by
    rw [Amqp.Broker.enqueue, Amqp.Broker.setQueue_messages_of_ne (by decide)]
    exact h.commands
  retries := by
    rw [Amqp.Broker.enqueue, Amqp.Broker.contents_setQueue_of_not_mem deadLetterQueue_not_mem]
    exact h.retries
  deadLetters := by
    rw [Amqp.Broker.enqueue, Amqp.Broker.setQueue_messages_self, ← List.append_assoc,
      List.map_append]
    exact h.deadLetters.append_right _
  events queue hqueue := by
    rw [Amqp.Broker.enqueue, Amqp.Broker.setQueue_messages_of_ne (eventQueue_ne queue hqueue).2.1]
    exact h.events queue hqueue

/-- The queues of events hold one event more, as far as it is routed to them. -/
theorem event (h : Represents c w) {p : Publication} (hp : p.exchange = .events)
    {c' : BrokerWorld} {w' : World} (hstore : w'.store = c'.store)
    (hrequested : w'.requested = c'.requested) (hcommands : w'.commands = w.commands)
    (hretries : w'.retries = w.retries) (hdeadLetters : w'.deadLetters = w.deadLetters)
    (hconsumed : c'.consumed = c.consumed)
    (hlog : (w'.events ++ c'.announced).Perm ((w.events ++ c.announced) ++ [p]))
    (hmessages : c'.broker.messages = fun queue =>
      c.broker.messages queue ++ (if p.destinedTo queue then [p.toMessage] else [])) :
    Represents c' w' := by
  obtain ⟨hrouted, hothers⟩ := destinedTo_events hp
  have hkept : ∀ queue ∈ commandQueue :: deadLetterQueue :: retryQueues,
      c'.broker.messages queue = c.broker.messages queue := by
    intro queue hqueue
    simp [hmessages, hothers queue hqueue]
  refine ⟨hstore, hrequested, ?_, ?_, ?_, fun queue hqueue => ?_⟩
  · rw [hkept _ (by simp), hcommands]
    exact h.commands
  · have hcontents : c'.broker.contents retryQueues = c.broker.contents retryQueues :=
      List.flatMap_congr fun queue hqueue => hkept queue (by simp [hqueue])
    rw [hcontents, hretries]
    exact h.retries
  · rw [hkept _ (by simp), hdeadLetters, hconsumed]
    exact h.deadLetters
  · have hnew : (if p.destinedTo queue.literal then [p.toMessage] else [])
        = (([p].filter (·.routedTo queue)).map (·.toMessage)) := by
      rw [hrouted queue hqueue]
      by_cases hroute : p.routedTo queue = true <;> simp [hroute]
    have hold := h.events queue hqueue
    rw [hmessages, hconsumed, ← List.append_assoc, hnew]
    refine (hold.append_right _).trans (List.Perm.symm ?_)
    rw [← List.map_append, ← List.filter_append]
    exact (hlog.filter _).map _

/-- A publication that is meant goes where the world takes it. -/
theorem take (h : Represents c w) (hsound : TopologySound c) {service : Service}
    (hdeclared : c.Declared service) {p : Publication} (hcovers : service.Covers p.exchange)
    (hmeant : p.Meant) {b : FlowPilotBroker}
    (hpublish : c.broker.publish p.exchange p.routingKey p.toMessage = some b) :
    Represents { c with broker := b } (w.take p) := by
  have henqueue : ∀ queue, (∀ queue', p.destinedTo queue' = decide (queue' = queue)) →
      b = c.broker.enqueue queue p.toMessage := fun queue hdestined =>
    Option.some.inj (hpublish.symm.trans (hsound.publish_eq_enqueue hdeclared hcovers
      fun queue' => (routesBy_topology p queue').trans (hdestined queue')))
  unfold World.take
  cases hp : p.exchange with
  | commands =>
      obtain rfl := henqueue _ (hmeant.commands hp)
      exact h.setCommands (h.commands.append_right _)
  | retry =>
      obtain ⟨queue, hqueue, hdestined⟩ := hmeant.retry hp
      obtain rfl := henqueue _ hdestined
      refine h.setRetries hqueue ?_
      rw [List.append_assoc]
      exact List.perm_append_comm.append_left _
  | dlx =>
      obtain rfl := henqueue _ (hmeant.dlx hp)
      exact h.deadLetter p
  | events =>
      obtain rfl := Option.some.inj (hpublish.symm.trans (hsound.publish_eq hdeclared hcovers))
      refine h.event hp h.store h.requested rfl rfl rfl rfl ?_ rfl
      simp only [List.append_assoc]
      exact List.perm_append_comm.append_left _

/-- Nothing has moved. -/
theorem of_messages (h : Represents c w) {c' : BrokerWorld} (hstore : c'.store = c.store)
    (hrequested : c'.requested = c.requested) (hmessages : c'.broker.messages = c.broker.messages)
    (hannounced : c'.announced = c.announced) (hconsumed : c'.consumed = c.consumed) :
    Represents c' w where
  store := h.store.trans hstore.symm
  requested := h.requested.trans hrequested.symm
  commands := hmessages ▸ h.commands
  retries := by
    rw [Amqp.Broker.contents, hmessages]
    exact h.retries
  deadLetters := by
    rw [hmessages, hconsumed]
    exact h.deadLetters
  events queue hqueue := by
    rw [hmessages, hannounced, hconsumed]
    exact h.events queue hqueue

theorem requeue (h : Represents c w) (place : Nat) (message : ConsumeMessage) :
    Represents { c with broker := c.broker.requeue commandQueue place message }
      { w with commands := w.commands ++ [message] } := by
  refine h.setCommands (List.perm_middle.trans ?_)
  rw [List.take_append_drop]
  exact (h.commands.cons _).trans (List.perm_append_singleton _ _).symm

/-- A call does to the world what it does to the broker. -/
theorem run (h : Represents c w) (hsound : TopologySound c)
    (hworker : c.Declared .executionWorker) {op : WorkerOp}
    (hpublish : ∀ p, op = .publish p →
      p.exchange ≠ .commands ∧ p.Meant ∧ (p.exchange = .events → c.Declared .api))
    {ctx : CallContext} {place : Nat} {r : op.Result} {c' : BrokerWorld}
    (hrun : op.runBroker ctx place c = some (r, c')) :
    ∃ w', op.run ctx w = some (r, w') ∧ Represents c' w' := by
  cases op with
  | db call =>
      obtain ⟨⟨r', store⟩, hcall, heq⟩ := Option.map_eq_some_iff.mp hrun
      cases heq
      refine ⟨{ w with store }, ?_, { h with store := rfl }⟩
      rw [WorkerOp.run, h.store, hcall]
      rfl
  | publish p =>
      obtain ⟨b, hb, heq⟩ := Option.map_eq_some_iff.mp hrun
      cases heq
      obtain ⟨-, hmeant, hevents⟩ := hpublish p rfl
      refine ⟨w.take p, rfl, ?_⟩
      by_cases hp : p.exchange = .events
      · exact h.take hsound (hevents hp) (hp ▸ api_covers.2) hmeant hb
      · exact h.take hsound hworker (executionWorker_covers hp) hmeant hb
  | nack message allUpTo requeue =>
      cases hrun
      cases requeue with
      | true => exact ⟨_, rfl, h.requeue place message⟩
      | false => exact ⟨w, rfl, h⟩
  | _ =>
      cases hrun
      exact ⟨w, rfl, h⟩

/-- A foreign message arrives, or is routed nowhere. -/
theorem arrive (h : Represents c w) (hsound : TopologySound c) {message : ConsumeMessage}
    {b : FlowPilotBroker}
    (hpublish : c.broker.publish .commands message.routingKey message = some b) :
    Represents { c with broker := b } w
    ∨ Represents { c with broker := b } { w with commands := w.commands ++ [message] } := by
  have honly : ∀ queue, c.broker.routes .commands message.routingKey queue = true →
      queue = commandQueue := fun queue hroutes =>
    routesBy_commands (hsound.within.routes hroutes)
  by_cases hbound : c.broker.routes .commands message.routingKey commandQueue = true
  · refine Or.inr ?_
    have hroutes : ∀ queue, c.broker.routes .commands message.routingKey queue
        = decide (queue = commandQueue) := by
      intro queue
      rw [Bool.eq_iff_iff, decide_eq_true_eq]
      exact ⟨honly queue, fun heq => heq ▸ hbound⟩
    have hexchange : .commands ∈ c.broker.exchanges := by
      by_contra hnone
      simp [Amqp.Broker.publish, hnone] at hpublish
    rw [Amqp.Broker.publish_eq_enqueue hexchange hroutes] at hpublish
    obtain rfl := Option.some.inj hpublish
    exact h.setCommands (h.commands.append_right _)
  · obtain rfl := Amqp.Broker.publish_cases hpublish
    refine Or.inl (h.of_messages rfl rfl (funext fun queue => ?_) rfl rfl)
    have hnone : c.broker.routes .commands message.routingKey queue = false := by
      rw [← Bool.not_eq_true]
      intro hroutes
      exact hbound (honly queue hroutes ▸ hroutes)
    simp [hnone]

/-- A retry copy comes back as a command. -/
theorem expire (h : Represents c w) (hsound : TopologySound c) {queue : String}
    {b : FlowPilotBroker} (hexpire : c.broker.expire ConsumeMessage.rekey queue = some b) :
    ∃ before message after, w.retries = before ++ message :: after
      ∧ Represents { c with broker := b } { w with
        retries := before ++ after
        commands := w.commands ++ [message.rekey requestedKey] } := by
  obtain ⟨ttl, exchange, key, message, rest, hlookup, hmessages, hpublish⟩ :=
    Amqp.Broker.expire_cases hexpire
  obtain ⟨hqueue, rfl, rfl⟩ := retryQueue_of_arguments (hsound.within.arguments _ _ hlookup)
  have hworker := hsound.retries queue hqueue (by simp [hmessages])
  have hmem : message ∈ w.retries := by
    refine h.retries.mem_iff.mp (List.mem_flatMap.mpr ⟨queue, hqueue, ?_⟩)
    simp [hmessages]
  obtain ⟨before, after, hsplit⟩ := List.append_of_mem hmem
  have hleft : Represents { c with broker := c.broker.setQueue queue rest }
      { w with retries := before ++ after } := by
    refine h.setRetries hqueue ?_
    rw [hsplit, hmessages]
    refine (List.perm_middle.append_right rest).trans ?_
    exact List.perm_middle.symm
  have hsound' := TopologyKept.setRetries hsound hqueue (by simp [hmessages]) rest
  have hcovers : Service.executionWorker.Covers .commands := executionWorker_covers (by decide)
  rw [hsound'.sound.publish_eq_enqueue (fun d hd => hsound'.has d (hworker d hd)) hcovers
    routesBy_requested] at hpublish
  obtain rfl := Option.some.inj hpublish
  exact ⟨before, message, after, hsplit, hleft.setCommands (hleft.commands.append_right _)⟩

/-- A consumer settles a message. -/
theorem consume (h : Represents c w) {queue : String} {before after : List ConsumeMessage}
    {message : ConsumeMessage}
    (hqueue : queue ∈ deadLetterQueue :: FlowPilotQueue.forEvents.map (·.literal))
    (hmessages : c.broker.messages queue = before ++ message :: after) :
    Represents { c with
      broker := c.broker.setQueue queue (before ++ after)
      consumed := Function.update c.consumed queue (message :: c.consumed queue) } w := by
  have hothers : ∀ queue ∈ deadLetterQueue :: FlowPilotQueue.forEvents.map (·.literal),
      queue ≠ commandQueue ∧ queue ∉ retryQueues := by decide
  obtain ⟨hcommand, hretry⟩ := hothers queue hqueue
  -- what is in the queue or was taken from it stays the same
  have hsame : ∀ queue', (Function.update c.consumed queue (message :: c.consumed queue) queue'
      ++ (c.broker.setQueue queue (before ++ after)).messages queue').Perm
        (c.consumed queue' ++ c.broker.messages queue') := by
    intro queue'
    by_cases heq : queue' = queue
    · subst heq
      rw [Function.update_self, Amqp.Broker.setQueue_messages_self, hmessages, List.cons_append]
      refine List.perm_middle.symm.trans (List.Perm.append_left _ ?_)
      exact List.perm_middle.symm
    · rw [Function.update_of_ne heq, Amqp.Broker.setQueue_messages_of_ne heq]
  refine ⟨h.store, h.requested, ?_, ?_, (hsame _).trans h.deadLetters,
    fun queue' hqueue' => (hsame _).trans (h.events queue' hqueue')⟩
  · rw [Amqp.Broker.setQueue_messages_of_ne (Ne.symm hcommand)]
    exact h.commands
  · rw [Amqp.Broker.contents_setQueue_of_not_mem hretry]
    exact h.retries

end Represents

/-! ## The refinement -/

section

variable [Runtime] {env : Environment} {s : BrokerPool} {w : World}

/-- What a worker publishes is meant, and finds its bindings declared. -/
theorem ReachableBroker.meant (h : ReachableBroker env s)
    (habstract : ReachableSystem env ⟨w, s.threads⟩) (hrep : Represents s.world w) {t : Nat}
    {info : Job} {history : WorkerHistory} {p : Publication}
    {k : Except JsError Bool → Worker Unit}
    (hth : s.threads t = some ⟨info, history, .call (.publish p) k⟩) :
    p.exchange ≠ .commands ∧ p.Meant ∧ (p.exchange = .events → s.world.Declared .api) := by
  have hsends : info.Sends (.publish p) := h.sends.next hth
  refine ⟨fun hp => ?_, ?_, fun hp => ?_⟩
  · simp [Job.Sends, hp] at hsends
  · unfold Publication.Meant
    cases hp : p.exchange with
    | commands => simp [Job.Sends, hp] at hsends
    | retry => simpa [Job.Sends, hp] using hsends
    | dlx =>
        simp only [Job.Sends, hp] at hsends
        rcases hsends with hkey | ⟨message, rfl, hkey⟩
        · exact hkey
        · exact hkey.trans (h.sound.delivery t _ message hth rfl)
    | events => trivial
  · obtain ⟨x, row, hrow⟩ := ReachableUnder.execution_of_publish habstract hth hp
    exact h.sound.world.executions x row (hrep.store ▸ hrow)

/-- Every step over the broker is one over the lists, or shows in none of
them. -/
theorem broker_simulates (env : Environment) : Pool.Simulates Nat (brokerSystem env)
    (workerSystem env) (· = .empty) (· = .empty) Represents where
  program := rfl
  start hw := ⟨.empty, rfl, hw ▸ represents_empty⟩
  exec := by
    intro s w t info history op k reply w' hrelated hth hexec
    have hreached : ReachableBroker env s := hrelated.reached
    have hrun : ∀ ctx place r, op.runBroker ctx place s.world = some (r, w') →
        ∃ v, op.run ctx w = some (r, v) ∧ Represents w' v := by
      intro ctx place r hcall
      refine hrelated.worlds.run hreached.sound.world (hreached.sound.worker t _ hth) ?_ hcall
      rintro p rfl
      exact hreached.meant hrelated.reached' hrelated.worlds hth
    cases reply with
    | ok r =>
        obtain ⟨hanswers, ctx, place, hcall⟩ := hexec
        obtain ⟨v, hv, hrep⟩ := hrun ctx place r hcall
        exact ⟨v, ⟨hanswers, ctx, hv⟩, hrep⟩
    | lost e =>
        obtain ⟨hthrows, ctx, place, r, hcall⟩ := hexec
        obtain ⟨v, hv, hrep⟩ := hrun ctx place r hcall
        exact ⟨v, ⟨hthrows, ctx, r, hv⟩, hrep⟩
    | failed e =>
        obtain ⟨hthrows, rfl⟩ := hexec
        exact ⟨w, ⟨hthrows, rfl⟩, hrelated.worlds⟩
  spawn := by
    intro s w info w' hrelated hspawn
    have hrep := hrelated.worlds
    cases hspawn with
    | @delivery _ rest message _ hmessages =>
        have hperm := hrep.commands
        rw [hmessages] at hperm
        obtain ⟨before, after, hsplit⟩ :=
          List.append_of_mem (hperm.mem_iff.mp List.mem_cons_self)
        refine ⟨_, .delivery hsplit, hrep.setCommands ?_⟩
        rw [hsplit] at hperm
        exact (List.perm_cons message).mp (hperm.trans List.perm_middle)
    | outboxDispatcher _ => exact ⟨w, .outboxDispatcher, hrep⟩
  stop := by
    rintro s w t ⟨info, history, q⟩ w' hrelated _ hstop
    have hrep := hrelated.worlds
    cases hstop with
    | @requeue _ message _ place hsettled =>
        exact ⟨_, .requeue hsettled, hrep.requeue place message⟩
    | settled hsettled => exact ⟨w, .settled hsettled, hrep⟩
    | outboxDispatcher => exact ⟨w, .outboxDispatcher, hrep⟩
  env := by
    intro s w w' hrelated henv
    have hrep := hrelated.worlds
    have hreached : ReachableBroker env s := hrelated.reached
    have hsound := hreached.sound.world
    cases henv with
    | start service => exact Or.inl (hrep.of_messages rfl rfl rfl rfl rfl)
    | declare hinstances hdeclare =>
        obtain ⟨b, hb, hmessages, -⟩ := TopologyKept.declare hsound hinstances
        obtain rfl := Option.some.inj (hb.symm.trans hdeclare)
        exact Or.inl (hrep.of_messages rfl rfl hmessages rfl rfl)
    | exit _ => exact Or.inl (hrep.of_messages rfl rfl rfl rfl rfl)
    | createExecution _ hnone hnew hcreates =>
        refine Or.inr ⟨_, .createExecution (hrep.store ▸ hnone) hnew hcreates, ?_⟩
        exact { hrep with store := by rw [hrep.store] }
    | @requestExecution execution b p eventId occurredAt actorUserId hserves hfind hnot hp
        hpublish =>
        subst hp
        have hfind' : w.store.findExecution execution.id = some execution := hrep.store ▸ hfind
        refine Or.inr ⟨_, .requestExecution eventId occurredAt actorUserId hfind'
          (hrep.requested ▸ hnot), ?_⟩
        have hmeant : (requestPublication
            (requestCommand execution eventId occurredAt actorUserId)).Meant := rfl
        have htaken := hrep.take hsound (hsound.declared hserves) api_covers.1 hmeant hpublish
        exact { htaken with requested := congrArg (· ++ [execution.id]) hrep.requested }
    | announce hserves hp hpublish =>
        rw [hsound.publish_eq (hsound.declared hserves) (hp ▸ api_covers.2)] at hpublish
        obtain rfl := Option.some.inj hpublish
        refine Or.inl (hrep.event hp hrep.store hrep.requested rfl rfl rfl rfl ?_ rfl)
        rw [List.append_assoc]
    | arrive harrives hpublish =>
        rcases hrep.arrive hsound hpublish with hsame | harrived
        · exact Or.inl hsame
        · exact Or.inr ⟨_, .arrive harrives, harrived⟩
    | expire hexpire =>
        obtain ⟨before, message, after, hsplit, hback⟩ := hrep.expire hsound hexpire
        exact Or.inr ⟨_, .retryExpires hsplit, hback⟩
    | consume hqueue hmessages => exact Or.inl (hrep.consume hqueue hmessages)

/-- **Refinement.** Whatever the system over the broker reaches, the system
over the lists reaches with the same threads, and the queues of the broker
hold what the lists hold. -/
theorem brokerSystem_refines (env : Environment) (s : BrokerPool) (h : ReachableBroker env s) :
    ∃ w, ReachableSystem env ⟨w, s.threads⟩ ∧ Represents s.world w :=
  (broker_simulates env).reachable h

/-- A service that is started can make its declarations and serve, whatever
the others have done. -/
theorem ReachableBroker.serve (h : ReachableBroker env s) (service : Service) :
    ∃ b, b.messages = s.world.broker.messages
      ∧ ReachableBroker env ⟨s.world.serving b service, s.threads⟩ := by
  have hfinish : ∀ (rest : List TopologyDeclaration) (b : FlowPilotBroker),
      ReachableBroker env ⟨{ s.world with
        broker := b, instances := (service, rest) :: s.world.instances }, s.threads⟩ →
      ∃ b', b'.messages = b.messages
        ∧ ReachableBroker env ⟨s.world.serving b' service, s.threads⟩ := by
    intro rest
    induction rest with
    | nil => exact fun b hb => ⟨b, rfl, hb⟩
    | cons d rest ih =>
        intro b hb
        obtain ⟨b₁, hdeclare, hmessages, -⟩ :=
          @TopologyKept.declare _ hb.sound.world [] _ _ d rest rfl
        have hdeclared := @BrokerStep.declare _ env _ [] _ _ d rest b₁ rfl hdeclare
        obtain ⟨b', hb', hserving⟩ := ih b₁ (.step hb trivial (.env hdeclared))
        exact ⟨b', hb'.trans hmessages, hserving⟩
  exact hfinish _ _ (.step h trivial (.env (.start service)))

/-- A worker and the API serve, and nothing else has happened. -/
def BrokerWorld.ready (broker : FlowPilotBroker) : BrokerWorld :=
  { BrokerWorld.empty with broker, instances := [(.executionWorker, []), (.api, [])] }

theorem reachable_ready (env : Environment) :
    ∃ b, b.messages = (fun _ => []) ∧ ReachableBroker env ⟨.ready b, fun _ => none⟩ := by
  have hempty : ReachableBroker env ⟨.empty, fun _ => none⟩ := .start rfl
  obtain ⟨b₁, hmessages₁, hapi⟩ := hempty.serve .api
  obtain ⟨b₂, hmessages₂, hworker⟩ := hapi.serve .executionWorker
  exact ⟨b₂, hmessages₂.trans hmessages₁, hworker⟩

/-- A command that is published is what the worker takes next. -/
theorem publish_ready {b : FlowPilotBroker} {threads : Nat → Option WorkerThread} {store : Store}
    (h : ReachableBroker env ⟨{ BrokerWorld.ready b with store }, threads⟩)
    (hmessages : b.messages = fun _ => []) (message : ConsumeMessage) :
    b.publish .commands requestedKey message = some (b.enqueue commandQueue message)
    ∧ (b.enqueue commandQueue message).messages commandQueue = [message] := by
  have hserves : (.executionWorker, []) ∈ (BrokerWorld.ready b).instances := by
    simp [BrokerWorld.ready]
  refine ⟨h.sound.world.publish_eq_enqueue (h.sound.world.declared hserves)
    (executionWorker_covers (by decide)) routesBy_requested, ?_⟩
  rw [Amqp.Broker.enqueue, Amqp.Broker.setQueue_messages_self, hmessages]
  rfl

omit [Runtime] in
/-- The refinement where a worker handles the first command of the API. -/
theorem brokerSystem_refines_requested :
    ∃ (_ : Runtime) (env : Environment) (s : BrokerPool) (t : Nat) (th : WorkerThread),
      ReachableBroker env s ∧ s.threads t = some th
      ∧ th.info = .delivery (newMessage defaultWorkflowDefinition)
      ∧ ∃ w, ReachableSystem env ⟨w, s.threads⟩ ∧ Represents s.world w := by
  let : Runtime := .sample false
  let env := scriptEnvironment (newRow defaultWorkflowDefinition)
  obtain ⟨b, hmessages, hready⟩ := reachable_ready env
  have hserves : (.api, []) ∈ (BrokerWorld.ready b).instances := by simp [BrokerWorld.ready]
  have hcreated : ReachableBroker env ⟨{ BrokerWorld.ready b with
      store := (World.withExecution (newExecution defaultWorkflowDefinition)).store },
        fun _ => none⟩ :=
    .step hready trivial (.env (@BrokerStep.createExecution _ env _ "execution" _
      hserves rfl (newRow_isNew defaultWorkflowDefinition) rfl))
  obtain ⟨hpublish, hcommand⟩ :=
    publish_ready hcreated hmessages (newMessage defaultWorkflowDefinition)
  have hrequested := hcreated.step trivial (.env (@BrokerStep.requestExecution _ env _
    (newExecution defaultWorkflowDefinition) _ _ "command" "1970-01-01T00:00:00.000Z" "user"
    hserves rfl (by simp [BrokerWorld.ready, BrokerWorld.empty]) rfl hpublish))
  have hdelivery := hrequested.step trivial
    (@Pool.Step.spawn _ _ _ _ _ _ _ (brokerSystem env) _ _ _ 0
      (.delivery (newMessage defaultWorkflowDefinition)) rfl
      (.delivery (by simp [BrokerWorld.ready]) hcommand))
  exact ⟨_, env, _, 0, _, hdelivery, rfl, rfl, brokerSystem_refines env _ hdelivery⟩

/-! ## Nothing is lost -/

/-- Publishing sends a copy to every queue the publication is destined to,
and there is one. -/
structure BrokerWorld.Delivers (c : BrokerWorld) (p : Publication) : Prop where
  destined : ∃ queue, p.destinedTo queue = true
  published : c.broker.publish p.exchange p.routingKey p.toMessage = some { c.broker with
    messages := fun queue =>
      c.broker.messages queue ++ (if p.destinedTo queue then [p.toMessage] else []) }

omit [Runtime] in
/-- Some queue is bound for every event. -/
theorem destined_of_event {p : Publication} (hp : p.exchange = .events)
    {name : FlowPilotRoutingKey} (hkey : p.routingKey = name.literal)
    (hname : name ≠ .workflowExecutionRequested) : ∃ queue, p.destinedTo queue = true := by
  have hbound : ∃ queue ∈ FlowPilotQueue.forEvents,
      (Api.flowPilotQueueBindings ++ WorkflowService.declaredBindings).any (fun binding =>
        binding.queue = queue && binding.exchange = .events
          && WorkflowService.topicMatches binding.routingKey name.literal) = true := by
    cases name with
    | workflowExecutionRequested => exact absurd rfl hname
    | _ => decide
  obtain ⟨queue, hqueue, hrouted⟩ := hbound
  refine ⟨queue.literal, ?_⟩
  rw [(destinedTo_events hp).1 queue hqueue, Publication.routedTo, hp, hkey]
  exact hrouted

omit [Runtime] in
theorem CreatedFor.not_requested {m : WorkflowExecutionRequestedMessage}
    {message : WorkflowLifecycleMessage} (h : CreatedFor m message) :
    message.eventName ≠ .workflowExecutionRequested := by
  cases h <;> exact fun hname => by cases hname

theorem ReachableUnder.destined_of_publish {C : WorkerPool → WorkerLabel → Prop} {s : WorkerPool}
    (h : ReachableUnder env C s) {t : Nat} {info : Job} {history : WorkerHistory} {p : Publication}
    {k : Except JsError Bool → Worker Unit}
    (hth : s.threads t = some ⟨info, history, .call (.publish p) k⟩) (hp : p.exchange = .events) :
    ∃ queue, p.destinedTo queue = true := by
  obtain ⟨snapshot, now, hseen, -, rfl⟩ := (ReachableUnder.outboxOp h).next hth hp
  obtain ⟨row, hrow, hsame⟩ := ReachableUnder.snapshots h t _ hth snapshot hseen
  obtain ⟨m, hcreated⟩ := ReachableUnder.created h row hrow
  rw [← hsame.publication now] at hp ⊢
  refine destined_of_event hp rfl ?_
  rw [hcreated.routingKey]
  exact hcreated.payload.not_requested

omit [Runtime] in
theorem Publication.Meant.destined {p : Publication} (h : p.Meant) (hp : p.exchange ≠ .events) :
    ∃ queue, p.destinedTo queue = true := by
  cases hexchange : p.exchange with
  | commands => exact ⟨commandQueue, by simp [h.commands hexchange]⟩
  | retry =>
      obtain ⟨queue, -, hdestined⟩ := h.retry hexchange
      exact ⟨queue, by simp [hdestined]⟩
  | dlx => exact ⟨deadLetterQueue, by simp [h.dlx hexchange]⟩
  | events => exact absurd hexchange hp

omit [Runtime] in
/-- What waits in a retry queue can come back. -/
theorem TopologySound.expire_eq {c : BrokerWorld} (h : TopologySound c) {queue : String}
    (hqueue : queue ∈ retryQueues) {message : ConsumeMessage} {rest : List ConsumeMessage}
    (hmessages : c.broker.messages queue = message :: rest) :
    c.broker.expire ConsumeMessage.rekey queue = some
      ((c.broker.setQueue queue rest).enqueue commandQueue (message.rekey requestedKey)) := by
  have hworker := h.retries queue hqueue (by simp [hmessages])
  have hasserted : ∀ queue ∈ retryQueues,
      .assertQueue queue (topology.arguments queue) ∈ Service.executionWorker.declarations := by
    decide
  obtain ⟨arguments, hlookup⟩ := Option.isSome_iff_exists.mp (hworker _ (hasserted queue hqueue))
  obtain ⟨ttl, harguments⟩ := arguments_retryQueue queue hqueue
  rw [← h.within.arguments _ _ hlookup, harguments] at hlookup
  have hkept := TopologyKept.setRetries h hqueue (by simp [hmessages]) rest
  have hcovers : Service.executionWorker.Covers .commands := executionWorker_covers (by decide)
  simp only [Amqp.Broker.expire, hlookup, hmessages]
  exact hkept.sound.publish_eq_enqueue (fun d hd => hkept.has d (hworker d hd)) hcovers
    routesBy_requested

/-- **Nothing is lost.** Whatever services have started, in whatever order
and however far they have come: the broker refuses none of their
declarations; what a worker or the API publishes reaches every queue it is
destined to, and there is one; and what waits in a retry queue comes back as
a command. -/
theorem broker_never_drops (env : Environment) (s : BrokerPool) (h : ReachableBroker env s) :
    (∀ service d rest, (service, d :: rest) ∈ s.world.instances →
      ∃ b, s.world.broker.declare d = some b)
    ∧ (∀ t info history p k, s.threads t = some ⟨info, history, .call (.publish p) k⟩ →
      s.world.Delivers p)
    ∧ (∀ p : Publication, (.api, []) ∈ s.world.instances →
      (p.exchange = .commands ∧ p.routingKey = requestedKey) ∨ p.IsWorkflowCreated →
      s.world.Delivers p)
    ∧ ∀ queue ∈ retryQueues, ∀ message rest, s.world.broker.messages queue = message :: rest →
      s.world.broker.expire ConsumeMessage.rekey queue = some
        ((s.world.broker.setQueue queue rest).enqueue commandQueue
          (message.rekey requestedKey)) := by
  obtain ⟨w, habstract, hrep⟩ := (broker_simulates env).reachable h
  have hsound := h.sound.world
  refine ⟨fun service d rest hmem => ?_, fun t info history p k hth => ?_,
    fun p hserves hp => ?_, fun queue hqueue message rest => hsound.expire_eq hqueue⟩
  · obtain ⟨before, after, hinstances⟩ := List.append_of_mem hmem
    obtain ⟨b, hb, -⟩ := TopologyKept.declare hsound hinstances
    exact ⟨b, hb⟩
  · obtain ⟨-, hmeant, hevents⟩ := h.meant habstract hrep hth
    by_cases hp : p.exchange = .events
    · exact ⟨ReachableUnder.destined_of_publish habstract hth hp,
        hsound.publish_eq (hevents hp) (hp ▸ api_covers.2)⟩
    · exact ⟨hmeant.destined hp,
        hsound.publish_eq (h.sound.worker t _ hth) (executionWorker_covers hp)⟩
  · have hapi := hsound.declared hserves
    rcases hp with ⟨hp, hkey⟩ | ⟨hp, hkey⟩
    · have hmeant : p.Meant := by simpa [Publication.Meant, hp] using hkey
      exact ⟨hmeant.destined (by simp [hp]), hsound.publish_eq hapi (hp ▸ api_covers.1)⟩
    · exact ⟨destined_of_event hp hkey (by decide), hsound.publish_eq hapi (hp ▸ api_covers.2)⟩

omit [Runtime] in
/-- A worker is about to dead-letter a message that is no command. -/
theorem broker_never_drops_deadLetter :
    ∃ (_ : Runtime) (env : Environment) (s : BrokerPool) (t : Nat) (info : Job)
      (history : WorkerHistory) (p : Publication) (k : Except JsError Bool → Worker Unit),
      ReachableBroker env s ∧ s.threads t = some ⟨info, history, .call (.publish p) k⟩
      ∧ p.exchange = .dlx ∧ s.world.Delivers p := by
  let : Runtime := .sample false
  let env : Environment := ⟨fun _ _ _ => True, fun _ _ => True, fun _ => True⟩
  let message : ConsumeMessage := ⟨.notJson "", requestedKey, ⟨none, none, none, none⟩⟩
  obtain ⟨k, hprogram, p, k', hnext, hp⟩ : ∃ k, handleDelivery message = .call .newDate k
      ∧ ∃ p k', k (.ok (0 : Int)) = .call (.publish p) k' ∧ p.exchange = .dlx :=
    ⟨_, rfl, _, _, rfl, rfl⟩
  obtain ⟨b, hmessages, hready⟩ := reachable_ready env
  obtain ⟨hpublish, hcommand⟩ := publish_ready hready hmessages message
  have harrived := hready.step trivial (.env (@BrokerStep.arrive _ env _ message _ trivial
    hpublish))
  have hdelivery := harrived.step trivial
    (@Pool.Step.spawn _ _ _ _ _ _ _ (brokerSystem env) _ _ _ 0 (.delivery message) rfl
      (.delivery (by simp [BrokerWorld.ready]) hcommand))
  rw [show (brokerSystem env).program (.delivery message) = .call .newDate k from hprogram]
    at hdelivery
  have hclock := hdelivery.step trivial
    (@Pool.Step.act _ _ _ _ _ _ _ (brokerSystem env) _ _ _ 0 _ _ .newDate k (.ok (0 : Int))
      (Function.update_self ..) ⟨trivial, scriptContext (fun _ => true) 0, 0, rfl⟩)
  have hth := congrArg (fun q : Worker Unit =>
    some (⟨.delivery message, [⟨.newDate, .ok (0 : Int)⟩], q⟩ : WorkerThread)) hnext
  exact ⟨_, env, _, 0, _, _, p, k', hclock, hth, hp,
    (broker_never_drops env _ hclock).2.1 0 _ _ p k' hth⟩

end

end FlowPilot
