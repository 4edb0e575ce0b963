import FlowPilot.System.NodeFailure
import FlowPilot.Worker.CommandText

/-!
# Bounded retries

A retry copy of a command carries the number of its attempt in a header, and
the delivery of the copy reads it back. A delivery publishes at most one
copy, with the next number, to the queue of that number, and none once the
numbers are used up (`handleDelivery_copies`). So a chain of deliveries, each
of a copy the one before it published, ends after `maxRetryAttempts` copies
at the latest, whatever the header of the first message holds
(`bounded_retries`).

A copy is a text that `JSON.stringify` writes of the command, and the command
is read back from it as long as its numbers are finite. A literal that is too
large for a double, such as `1e999`, is an infinity to the parser, which
accepts it, and `null` in the copy (`retryCopies_of_infinity`).
-/

namespace FlowPilot

open Prog hiding pure throw bind tryCatch

/-! ## Copies -/

/-- The publications of a delivery to the retry exchange. -/
def retryCopies (events : WorkerHistory) : List Publication :=
  events.filterMap fun ev =>
    match ev.op with
    | .publish p => if p.exchange = .retry then some p else none
    | _ => none

@[simp] theorem retryCopies_append (events rest : WorkerHistory) :
    retryCopies (events ++ rest) = retryCopies events ++ retryCopies rest := by
  simp [retryCopies]

theorem retryCopies_eq_nil {events : WorkerHistory} :
    retryCopies events = [] ↔ ¬ RetriesCommand events := by
  rw [retryCopies, List.filterMap_eq_nil_iff]
  constructor
  · rintro hall ⟨ev, hev, p, hop, hp⟩
    have hnone := hall ev hev
    rw [hop] at hnone
    simp [hp] at hnone
  · intro hnone ev hev
    split
    · rename_i p hop
      exact if_neg fun hp => hnone ⟨ev, hev, p, hop, hp⟩
    · rfl

/-- The broker delivers the publication: the content is read back from the
text that was written of it, and the headers are kept, among others it adds. -/
def Redelivers (T : NumberText) (p : Publication) (message : ConsumeMessage) : Prop :=
  p.content.ReadBack T message.content
    ∧ ∃ headers, message.properties.headers = some headers
      ∧ ∀ key value, p.headers.lookup key = some value → headers.lookup key = some value

section

variable [Runtime] {T : NumberText} {m : WorkflowExecutionRequestedMessage} {text : Json}
  {retryConfig : RetryQueue} {n : Nat} {message : ConsumeMessage}

theorem Redelivers.toMessage (htext : m.ReadFrom text) (retryConfig : RetryQueue) (n : Nat) :
    Redelivers T (retryPublication m retryConfig n) (retryPublication m retryConfig n).toMessage :=
  ⟨htext.readBack_iff.mpr rfl, _, rfl, fun _ _ h => h⟩

theorem Redelivers.attempt (h : Redelivers T (retryPublication m retryConfig n) message) :
    getWorkflowExecutionRetryAttempt message = n := by
  obtain ⟨-, headers, hheaders, hkept⟩ := h
  have hlookup : headers.lookup retryAttemptHeader = some (.num n) :=
    hkept _ _ (by simp [retryPublication, commandPublication, commandHeaders,
      retryAttemptHeader, List.lookup_cons])
  simp [getWorkflowExecutionRetryAttempt, hheaders, hlookup, JsNumber.natural?]

theorem Redelivers.parse (htext : m.ReadFrom text)
    (h : Redelivers T (retryPublication m retryConfig n) message) :
    parseWorkflowExecutionRequestedMessage message = some m :=
  parse_of_content (htext.readBack_iff.mp h.1)

end

section

variable [Runtime] {message : ConsumeMessage} {m : WorkflowExecutionRequestedMessage}

/-! ## One delivery -/

/-- The copies a delivery of `m` publishes: none, or the one for the next
attempt, where there is a next attempt. -/
inductive CopiesOf (message : ConsumeMessage) (m : WorkflowExecutionRequestedMessage) :
    List Publication → Prop
  | none : CopiesOf message m []
  | next {retryConfig : RetryQueue} :
      getWorkflowExecutionRetryAttempt message < maxRetryAttempts →
      retryQueueFor (getWorkflowExecutionRetryAttempt message + 1) = some retryConfig →
      CopiesOf message m
        [retryPublication m retryConfig (getWorkflowExecutionRetryAttempt message + 1)]

/-- One copy at most, and none without an attempt left. -/
theorem CopiesOf.length_le {copies : List Publication} (h : CopiesOf message m copies) :
    copies.length ≤ 1
      ∧ copies.length ≤ maxRetryAttempts - getWorkflowExecutionRetryAttempt message := by
  cases h with
  | none => simp
  | next hleft _ => exact ⟨le_rfl, Nat.sub_pos_of_lt hleft⟩

theorem CopiesOf.mem {copies : List Publication} (h : CopiesOf message m copies)
    {p : Publication} (hp : p ∈ copies) :
    ∃ retryConfig,
      retryQueueFor (getWorkflowExecutionRetryAttempt message + 1) = some retryConfig
      ∧ p = retryPublication m retryConfig (getWorkflowExecutionRetryAttempt message + 1) := by
  cases h with
  | none => cases hp
  | next _ hconfig => exact ⟨_, hconfig, List.mem_singleton.mp hp⟩

/-- The copy of an attempt, however its publish ends. -/
theorem publishRetryCommand_copies {n : Nat} {retryConfig : RetryQueue} {events : WorkerHistory}
    {out : Except JsError Unit} (hconfig : retryQueueFor n = some retryConfig)
    (h : Trace (publishRetryCommand m n) events out) :
    retryCopies events = [retryPublication m retryConfig n] := by
  simp only [publishRetryCommand, hconfig] at h
  obtain ⟨reply, rest, rfl, ⟨accepted, -, hrest⟩ | ⟨e, -, rfl, -⟩⟩ := trace_perform_bind h
  · cases hrest
    rfl
  · rfl

omit [Runtime] in
theorem ack_copies {events : WorkerHistory} {out : Except JsError Unit}
    (h : Trace (ack message) events out) : retryCopies events = [] := by
  refine retryCopies_eq_nil.mpr ?_
  rintro ⟨ev, hev, p, hop, -⟩
  have hack : Issues (fun op => ∀ p, op ≠ .publish p) (ack message) := issues_perform (by simp)
  exact (spec_trace hack h).1 ev hev p hop

/-- The handler of a failure publishes the copy of the next attempt, if
anything. -/
theorem handleFailure_copies {error : JsError} {events : WorkerHistory}
    {out : Except JsError Unit} (h : Trace (handleFailure message m error) events out) :
    CopiesOf message m (retryCopies events) := by
  by_cases hretries : (normalizeWorkerFailure error).retryable = true
      ∧ getWorkflowExecutionRetryAttempt message < maxRetryAttempts
  · obtain ⟨retryConfig, hconfig⟩ := retryQueueFor_isSome hretries.2
    have hnext := CopiesOf.next (m := m) hretries.2 hconfig
    simp only [handleFailure, if_pos hretries] at h
    rcases trace_bind h with ⟨_, hpublish, -⟩ | ⟨_, _, _, hpublish, hack, rfl⟩
    · rw [publishRetryCommand_copies hconfig hpublish]
      exact hnext
    · rw [retryCopies_append, publishRetryCommand_copies hconfig hpublish, ack_copies hack]
      exact hnext
  · rw [retryCopies_eq_nil.mpr (mt (handleFailure_retries_iff h).mp hretries)]
    exact .none

/-- A delivery of a command publishes the copy of its next attempt, if
anything. -/
theorem handleDelivery_copies {events : WorkerHistory} {out : Except JsError Unit}
    (hm : parseWorkflowExecutionRequestedMessage message = some m)
    (h : Trace (handleDelivery message) events out) : CopiesOf message m (retryCopies events) := by
  simp only [handleDelivery, hm] at h
  rcases trace_tryCatch h with ⟨_, hprocess, -⟩ | ⟨e, first, rest, hprocess, hhandle, rfl⟩
  · rw [retryCopies_eq_nil.mpr (processAndAck_not_retries hprocess)]
    exact .none
  · rw [retryCopies_append, retryCopies_eq_nil.mpr (processAndAck_not_retries hprocess)]
    exact handleFailure_copies hhandle

end

/-! ## What a delivery throws -/

/-- The calls on the channel that the handler makes itself. -/
def ChannelOp : WorkerOp → Prop
  | .publish _ => True
  | op => op.Settles

/-- The error was thrown by one of the calls on the channel. -/
def ThrownByChannel (e : JsError) (events : WorkerHistory) : Prop :=
  ∃ ev ∈ events, ChannelOp ev.op ∧ ev.reply.result = .error e

theorem ThrownByChannel.append_right {e : JsError} {events rest : WorkerHistory}
    (h : ThrownByChannel e rest) : ThrownByChannel e (events ++ rest) := by
  obtain ⟨ev, hev, hop, hreply⟩ := h
  exact ⟨ev, List.mem_append_right _ hev, hop, hreply⟩

/-- The program throws only what a call on the channel threw. -/
def RethrowsChannel {α : Type} (p : Worker α) : Prop :=
  Spec (fun _ => True) p (fun _ _ => True) ThrownByChannel

theorem rethrowsChannel_call {op : WorkerOp} (hop : ChannelOp op) : RethrowsChannel (call op) :=
  spec_perform trivial (fun _ => trivial) (fun _ => ⟨_, List.mem_cons_self, hop, rfl⟩)
    (fun _ => ⟨_, List.mem_cons_self, hop, rfl⟩)

theorem RethrowsChannel.bind {α β : Type} {p : Worker α} {f : α → Worker β}
    (hp : RethrowsChannel p) (hf : ∀ a, RethrowsChannel (f a)) : RethrowsChannel (p >>= f) :=
  spec_bind (spec_conseq hp
    (fun a _ _ => spec_conseq (hf a) (fun _ _ h => h) (fun _ _ h => h.append_right))
    (fun _ _ h => h))

/-- Whatever the body throws is caught. -/
theorem RethrowsChannel.tryCatch {α : Type} {p : Worker α} {handler : JsError → Worker α}
    (hhandler : ∀ e, RethrowsChannel (handler e)) : RethrowsChannel (p.tryCatch handler) := by
  have hp : Spec (fun _ => True) p (fun _ _ => True) (fun _ _ => True) :=
    spec_of_traces (fun _ _ _ => trivial) (fun _ _ _ => trivial)
  exact spec_tryCatch (spec_conseq hp (fun _ _ h => h)
    (fun e _ _ => spec_conseq (hhandler e) (fun _ _ h => h) (fun _ _ h => h.append_right)))

section

variable [Runtime] (message : ConsumeMessage) {m : WorkflowExecutionRequestedMessage}

/-- There is a queue for the copy, so only the publish and the
acknowledgement can throw. -/
theorem handleFailure_rethrows (error : JsError) :
    RethrowsChannel (handleFailure message m error) := by
  simp only [handleFailure]
  split
  · rename_i hretries
    obtain ⟨retryConfig, hconfig⟩ := retryQueueFor_isSome hretries.2
    simp only [publishRetryCommand, hconfig]
    refine .bind (.bind (rethrowsChannel_call trivial) fun _ => ?_) fun _ =>
      rethrowsChannel_call trivial
    trivial
  · exact .tryCatch fun _ => rethrowsChannel_call trivial

theorem handleDelivery_rethrows (hm : parseWorkflowExecutionRequestedMessage message = some m) :
    RethrowsChannel (handleDelivery message) := by
  simp only [handleDelivery, hm]
  exact .tryCatch fun error => handleFailure_rethrows message error

/-! ## Chains -/

/-- A complete run of the handler. -/
structure Delivery where
  message : ConsumeMessage
  events : WorkerHistory
  out : Except JsError Unit
  trace : Trace (handleDelivery message) events out

/-- Each delivery but the first is one of a copy that the delivery before it
published. -/
def RetryChain (T : NumberText) (deliveries : List Delivery) : Prop :=
  deliveries.IsChain fun d d' => ∃ p ∈ retryCopies d.events, Redelivers T p d'.message

variable {message} {T : NumberText} {text : Json}

/-- The next delivery of a chain is one of the same command with the next
number. -/
theorem Delivery.next {d d' : Delivery} {p : Publication}
    (hm : parseWorkflowExecutionRequestedMessage d.message = some m)
    (htext : m.ReadFrom text) (hp : p ∈ retryCopies d.events) (h : Redelivers T p d'.message) :
    parseWorkflowExecutionRequestedMessage d'.message = some m
      ∧ getWorkflowExecutionRetryAttempt d'.message
        = getWorkflowExecutionRetryAttempt d.message + 1 := by
  obtain ⟨retryConfig, -, rfl⟩ := (handleDelivery_copies hm d.trace).mem hp
  exact ⟨h.parse htext, h.attempt⟩

/-- Every delivery of a chain is one of the command it begins with. -/
theorem RetryChain.parse : ∀ {d : Delivery} {rest : List Delivery}, RetryChain T (d :: rest) →
    parseWorkflowExecutionRequestedMessage d.message = some m → m.ReadFrom text →
    ∀ e ∈ d :: rest, parseWorkflowExecutionRequestedMessage e.message = some m
  | d, [], _, hm, _ => by simpa using hm
  | d, d' :: rest, hchain, hm, htext => by
      obtain ⟨⟨p, hp, hredelivers⟩, hchain⟩ := List.isChain_cons_cons.mp hchain
      have hrest := RetryChain.parse hchain (Delivery.next hm htext hp hredelivers).1 htext
      exact List.forall_mem_cons.mpr ⟨hm, hrest⟩

/-- Along a chain the number of the attempt goes up by one each time. -/
theorem RetryChain.attempts : ∀ {d : Delivery} {rest : List Delivery}, RetryChain T (d :: rest) →
    parseWorkflowExecutionRequestedMessage d.message = some m → m.ReadFrom text →
    (d :: rest).IsChain fun e e' => getWorkflowExecutionRetryAttempt e'.message
      = getWorkflowExecutionRetryAttempt e.message + 1
  | d, [], _, _, _ => .singleton d
  | d, d' :: rest, hchain, hm, htext => by
      obtain ⟨⟨p, hp, hredelivers⟩, hchain⟩ := List.isChain_cons_cons.mp hchain
      obtain ⟨hm', hnext⟩ := Delivery.next hm htext hp hredelivers
      exact List.isChain_cons_cons.mpr ⟨hnext, RetryChain.attempts hchain hm' htext⟩

/-- A chain publishes no more copies than attempts are left. -/
theorem RetryChain.copies_le : ∀ {d : Delivery} {rest : List Delivery}, RetryChain T (d :: rest) →
    parseWorkflowExecutionRequestedMessage d.message = some m → m.ReadFrom text →
    ((d :: rest).flatMap fun e => retryCopies e.events).length
      ≤ maxRetryAttempts - getWorkflowExecutionRetryAttempt d.message
  | d, [], _, hm, _ => by
      rw [List.flatMap_singleton]
      exact (handleDelivery_copies hm d.trace).length_le.2
  | d, d' :: rest, hchain, hm, htext => by
      obtain ⟨⟨p, hp, hredelivers⟩, hchain⟩ := List.isChain_cons_cons.mp hchain
      obtain ⟨hm', hnext⟩ := Delivery.next hm htext hp hredelivers
      obtain ⟨hone, hleft⟩ := (handleDelivery_copies hm d.trace).length_le
      have hrest := RetryChain.copies_le hchain hm' htext
      have hsome := List.length_pos_of_mem hp
      rw [List.flatMap_cons, List.length_append]
      omega

/-- Along any chain of retries of an accepted command, read from a text with
finite numbers, whatever the header of its first message: the deliveries are
all of that command, their numbers go up by one, at most `maxRetryAttempts`
copies are published, each to the queue of its number and parsed as the same
command when it comes back. A delivery throws only what a call on the channel
threw, so there is a queue for every copy:
`workflow_execution_retry_policy_missing` is not raised. -/
theorem bounded_retries (d : Delivery) (rest : List Delivery)
    (hm : parseWorkflowExecutionRequestedMessage d.message = some m) (htext : m.ReadFrom text)
    (hchain : RetryChain T (d :: rest)) :
    ((d :: rest).IsChain fun e e' => getWorkflowExecutionRetryAttempt e'.message
        = getWorkflowExecutionRetryAttempt e.message + 1)
    ∧ ((d :: rest).flatMap fun e => retryCopies e.events).length ≤ maxRetryAttempts
    ∧ ∀ e ∈ d :: rest, parseWorkflowExecutionRequestedMessage e.message = some m
      ∧ (∀ p ∈ retryCopies e.events, p.exchange = .retry
        ∧ (∃ retryConfig,
          retryQueueFor (getWorkflowExecutionRetryAttempt e.message + 1) = some retryConfig
            ∧ p.routingKey = retryConfig.routingKey)
        ∧ ∀ message, Redelivers T p message →
          parseWorkflowExecutionRequestedMessage message = some m)
      ∧ ∀ error, e.out = .error error → ThrownByChannel error e.events := by
  refine ⟨hchain.attempts hm htext, (hchain.copies_le hm htext).trans (Nat.sub_le _ _), ?_⟩
  intro e he
  have hme := hchain.parse hm htext e he
  refine ⟨hme, fun p hp => ?_, fun error herror => ?_⟩
  · obtain ⟨retryConfig, hconfig, rfl⟩ := (handleDelivery_copies hme e.trace).mem hp
    exact ⟨rfl, ⟨retryConfig, hconfig, rfl⟩, fun _ h => h.parse htext⟩
  · have htrace := e.trace
    rw [herror] at htrace
    exact (spec_trace (handleDelivery_rethrows e.message hme) htrace).2

/-- A delivery whose first query fails, with an attempt left: it publishes
the copy of the next one. -/
theorem exists_retrying_delivery (hm : parseWorkflowExecutionRequestedMessage message = some m)
    (hleft : getWorkflowExecutionRetryAttempt message < maxRetryAttempts) :
    ∃ (d : Delivery) (retryConfig : RetryQueue), d.message = message
      ∧ retryPublication m retryConfig (getWorkflowExecutionRetryAttempt message + 1)
        ∈ retryCopies d.events := by
  obtain ⟨retryConfig, hconfig⟩ := retryQueueFor_isSome hleft
  have hprocess : Trace (processAndAck message m)
      [⟨.newDate, .ok (0 : Int)⟩, ⟨.db (.findExecution m.executionId), .failed (.error "")⟩]
      (.error (.error "")) :=
    trace_bind_error (trace_perform_seq (trace_bind_error (trace_perform (.failed _))))
  let copy := retryPublication m retryConfig (getWorkflowExecutionRetryAttempt message + 1)
  have hpublish : Trace
      (publishRetryCommand m (getWorkflowExecutionRetryAttempt message + 1))
      [⟨.publish copy, .ok true⟩] (.ok ()) := by
    simp only [publishRetryCommand, hconfig]
    exact trace_perform_seq (.pure ())
  have hack : Trace (ack message) [⟨.ack message, .ok ()⟩] (.ok ()) :=
    @trace_perform WorkerOp WorkerOp.Result JsError (.ack message) (.ok ())
  have hhandle : Trace (handleFailure message m (.error ""))
      ([⟨.publish copy, .ok true⟩] ++ [⟨.ack message, .ok ()⟩]) (.ok ()) := by
    simp only [handleFailure, normalizeWorkerFailure, hleft, and_self, if_true]
    exact trace_seq (f := fun _ => ack message) hack hpublish
  have htrace := (trace_tryCatch_error hprocess).mpr hhandle
  refine ⟨⟨message, _, _, by rwa [handleDelivery, hm]⟩, retryConfig, rfl, ?_⟩
  exact List.mem_cons_self

end

/-- A command for a new execution holds small numbers only. -/
theorem newCommand_readFrom (definition : Json) :
    (newCommand definition).ReadFrom (newCommand definition).value := by
  have hone : JsNumber.nearestDouble 1 = .finite 1 := by decide +kernel
  simp [WorkflowExecutionRequestedMessage.ReadFrom, newCommand, requestCommand, newExecution,
    newRow, createWorkflowExecutionRequestedMessage, ParsedJson.parse, ParsedJson.ofJson,
    Json.toValue, Json.toValueFields, messageSchemaVersion, hone]

/-- The theorem at a command whose delivery fails twice. -/
theorem bounded_retries_twice :
    ∃ (_ : Runtime) (d d' : Delivery), RetryChain .exact [d, d']
      ∧ getWorkflowExecutionRetryAttempt d'.message
        = getWorkflowExecutionRetryAttempt d.message + 1
      ∧ parseWorkflowExecutionRequestedMessage d'.message = some (newCommand .null)
      ∧ 0 < (retryCopies d'.events).length
      ∧ ([d, d'].flatMap fun e => retryCopies e.events).length ≤ maxRetryAttempts := by
  let _ : Runtime := .sample false
  have htext := newCommand_readFrom .null
  obtain ⟨d, retryConfig, hd, hp⟩ := exists_retrying_delivery (newMessage_parses .null) (by decide)
  have hm : parseWorkflowExecutionRequestedMessage d.message = some (newCommand .null) :=
    hd ▸ newMessage_parses .null
  rw [← hd] at hp
  have hredelivers := Redelivers.toMessage (T := .exact) htext retryConfig
    (getWorkflowExecutionRetryAttempt d.message + 1)
  have hleft : getWorkflowExecutionRetryAttempt (retryPublication (newCommand .null) retryConfig
      (getWorkflowExecutionRetryAttempt d.message + 1)).toMessage < maxRetryAttempts := by
    rw [hredelivers.attempt, hd]
    decide
  obtain ⟨d', retryConfig', hd', hp'⟩ := exists_retrying_delivery (hredelivers.parse htext) hleft
  rw [← hd'] at hredelivers
  have hchain : RetryChain .exact [d, d'] :=
    List.isChain_cons_cons.mpr ⟨⟨_, hp, hredelivers⟩, .singleton d'⟩
  obtain ⟨hattempts, hcopies, hall⟩ := bounded_retries d [d'] hm htext hchain
  have hsecond := List.length_pos_of_mem hp'
  exact ⟨_, d, d', hchain, (List.isChain_cons_cons.mp hattempts).1, (hall d' (by simp)).1, hsecond,
    hcopies⟩

/-! ### Infinities -/

/-- The text of a command that holds a number in its input. -/
def commandTextOf (workflowVersion : Nat) (limit : Rat) : Json :=
  createWorkflowExecutionRequestedMessage
    { newExecution .null with
      workflowVersion := ⟨workflowVersion, .null⟩
      input := [("limit", .num limit)] }
    "command" "1970-01-01T00:00:00.000Z" "user"

/-- Not every copy is the command: the parser accepts a text with a number
that is too large for a double, in the input or for the version. The copy of
the first is accepted and holds `null` in its place; the copy of the second
is refused. -/
theorem retryCopies_of_infinity :
    let input := ParsedJson.parse (commandTextOf 1 (10 ^ 999))
    let version := ParsedJson.parse (commandTextOf (10 ^ 999) 1)
    let copy := NumberText.exact.reread
    input.isWorkflowExecutionRequestedMessage = true
      ∧ (copy input).isWorkflowExecutionRequestedMessage = true
      ∧ copy input ≠ input
      ∧ version.isWorkflowExecutionRequestedMessage = true
      ∧ (copy version).isWorkflowExecutionRequestedMessage = false := by
  refine ⟨by decide +kernel, by decide +kernel, ?_, by decide +kernel, by decide +kernel⟩
  rw [ne_eq, NumberText.reread_parse_eq_iff]
  decide +kernel

end FlowPilot
