import Mathlib.Data.List.Perm.Basic
import Mathlib.Logic.Function.Basic

/-!
# Topic exchanges and queues

A broker with topic exchanges: clients declare exchanges, queues and bindings,
again and again and in any order, and a published message is appended once to
every queue with a binding that matches. A queue may have a time to live and
an exchange for what outlives it.

A `Topology` says which queues and bindings there may be, and with which
arguments. As long as all declarations agree with one, none is refused that
comes after what it needs (`declare_of_needs`), and what is routed where can be
read off the topology once its bindings are declared (`routes_eq`).
-/

namespace Amqp

/-! ## Topics -/

/-- The words of a routing key. -/
def words (key : String) : List (List Char) := key.toList.splitOn '.'

/-- `*` stands for one word, `#` for any number of words. -/
def matchesWords : List (List Char) → List (List Char) → Bool
  | [], key => key.isEmpty
  | word :: pattern, key =>
      if word = ['#'] then key.tails.any (matchesWords pattern)
      else
        match key with
        | [] => false
        | keyWord :: rest => (word = ['*'] || word = keyWord) && matchesWords pattern rest

def topicMatches (pattern key : String) : Bool := matchesWords (words pattern) (words key)

example : topicMatches "a.*.b" "a.x.b" = true ∧ topicMatches "a.#" "a.x.b" = true
    ∧ topicMatches "a.*" "a.x.b" = false := by decide

/-- Without `#`, words are compared one by one. -/
theorem matchesWords_of_fixed {pattern : List (List Char)} (h : ['#'] ∉ pattern) :
    ∀ key, matchesWords pattern key = (decide (pattern.length = key.length)
      && (pattern.zip key).all fun (word, keyWord) => word = ['*'] || word = keyWord) := by
  induction pattern with
  | nil =>
      intro key
      cases key <;> simp [matchesWords]
  | cons word pattern ih =>
      obtain ⟨hword, hrest⟩ := not_or.mp (List.mem_cons.not.mp h)
      have hword : word ≠ ['#'] := Ne.symm hword
      intro key
      cases key with
      | nil => simp [matchesWords, hword]
      | cons keyWord rest =>
          simp only [matchesWords, hword, if_false, ih hrest, List.length_cons,
            Nat.add_right_cancel_iff, List.zip_cons_cons, List.all_cons]
          exact Bool.and_left_comm _ _ _

theorem words_inj {key key' : String} (h : words key = words key') : key = key' := by
  have hjoin := congrArg (List.intercalate ['.']) h
  rw [words, words, List.intercalate_splitOn, List.intercalate_splitOn] at hjoin
  exact String.toList_inj.mp hjoin

/-- A pattern without wildcards matches itself. -/
theorem topicMatches_literal {pattern key : String} (hhash : ['#'] ∉ words pattern)
    (hstar : ['*'] ∉ words pattern) : topicMatches pattern key = true ↔ key = pattern := by
  rw [topicMatches, matchesWords_of_fixed hhash, Bool.and_eq_true, decide_eq_true_eq]
  constructor
  · rintro ⟨hlength, hall⟩
    refine words_inj (Eq.symm (List.ext_getElem hlength fun i hi hi' => ?_))
    have hlt : i < ((words pattern).zip (words key)).length := by
      rw [List.length_zip]
      exact Nat.lt_min.mpr ⟨hi, hi'⟩
    have hpair := List.all_eq_true.mp hall _ (List.getElem_mem hlt)
    rw [List.getElem_zip] at hpair
    have hword : (words pattern)[i] ≠ ['*'] := fun h => hstar (h ▸ List.getElem_mem hi)
    simpa [hword] using hpair
  · rintro rfl
    refine ⟨rfl, List.all_eq_true.mpr fun pair hpair => ?_⟩
    obtain ⟨i, hi, rfl⟩ := List.getElem_of_mem hpair
    simp

/-! ## Brokers -/

/-- The arguments of a queue: a time to live, and the exchange and key its
messages are dead-lettered with. -/
structure QueueArguments (X : Type) where
  messageTtl : Option Nat := none
  deadLetter : Option (X × String) := none
deriving DecidableEq

structure Binding (X Q : Type) where
  queue : Q
  exchange : X
  pattern : String
deriving DecidableEq

inductive Declaration (X Q : Type) where
  | assertExchange (exchange : X)
  | assertQueue (queue : Q) (arguments : QueueArguments X)
  | bindQueue (binding : Binding X Q)
deriving DecidableEq

/-- Messages with the key go from the exchange to the queue. -/
def routesBy {X Q : Type} [DecidableEq X] [DecidableEq Q] (bindings : List (Binding X Q))
    (exchange : X) (key : String) (queue : Q) : Bool :=
  bindings.any fun binding => decide (binding.queue = queue)
    && decide (binding.exchange = exchange) && topicMatches binding.pattern key

structure Broker (X Q M : Type) where
  exchanges : List X
  queues : List (Q × QueueArguments X)
  bindings : List (Binding X Q)
  messages : Q → List M

namespace Broker

variable {X Q M : Type} [DecidableEq X] [DecidableEq Q]

def empty : Broker X Q M := ⟨[], [], [], fun _ => []⟩

/-- The broker after a declaration, unless it refuses it: a queue that exists
with other arguments, or a binding of what does not exist. -/
def declare (b : Broker X Q M) : Declaration X Q → Option (Broker X Q M)
  | .assertExchange exchange => some { b with exchanges := exchange :: b.exchanges }
  | .assertQueue queue arguments =>
      match b.queues.lookup queue with
      | none => some { b with queues := (queue, arguments) :: b.queues }
      | some existing => if existing = arguments then some b else none
  | .bindQueue binding =>
      if (b.queues.lookup binding.queue).isSome ∧ binding.exchange ∈ b.exchanges then
        some { b with bindings := binding :: b.bindings }
      else none

def routes (b : Broker X Q M) : X → String → Q → Bool := routesBy b.bindings

/-- The queue holds these messages. -/
def setQueue (b : Broker X Q M) (queue : Q) (messages : List M) : Broker X Q M :=
  { b with messages := Function.update b.messages queue messages }

/-- One more message in a queue. -/
def enqueue (b : Broker X Q M) (queue : Q) (message : M) : Broker X Q M :=
  b.setQueue queue (b.messages queue ++ [message])

/-- A message that was taken goes back to a place in its queue. -/
def requeue (b : Broker X Q M) (queue : Q) (place : Nat) (message : M) : Broker X Q M :=
  b.setQueue queue ((b.messages queue).take place ++ message :: (b.messages queue).drop place)

/-- Every queue that is routed to gets the message once. An exchange that
does not exist closes the channel. -/
def publish (b : Broker X Q M) (exchange : X) (key : String) (message : M) :
    Option (Broker X Q M) :=
  if exchange ∈ b.exchanges then
    some { b with
      messages := fun queue =>
        b.messages queue ++ (if b.routes exchange key queue then [message] else []) }
  else none

/-- The first message of a queue outlives its time there; `rekey` is what
dead-lettering does to it. -/
def expire (rekey : String → M → M) (b : Broker X Q M) (queue : Q) : Option (Broker X Q M) :=
  match b.queues.lookup queue, b.messages queue with
  | some ⟨some _, some (exchange, key)⟩, message :: rest =>
      (b.setQueue queue rest).publish exchange key (rekey key message)
  | _, _ => none

/-! ## Declarations -/

/-- The declaration is in force. -/
def Has (b : Broker X Q M) : Declaration X Q → Prop
  | .assertExchange exchange => exchange ∈ b.exchanges
  | .assertQueue queue _ => (b.queues.lookup queue).isSome = true
  | .bindQueue binding => binding ∈ b.bindings

/-- What the declaration needs is in force. -/
def Meets (b : Broker X Q M) : Declaration X Q → Prop
  | .bindQueue binding =>
      (b.queues.lookup binding.queue).isSome = true ∧ binding.exchange ∈ b.exchanges
  | _ => True

end Broker

/-- The queues there may be with their arguments, and the bindings. -/
structure Topology (X Q : Type) where
  arguments : Q → QueueArguments X
  bindings : List (Binding X Q)

namespace Topology

variable {X Q M : Type} [DecidableEq X] [DecidableEq Q] (T : Topology X Q)

def Admits : Declaration X Q → Prop
  | .assertExchange _ => True
  | .assertQueue queue arguments => T.arguments queue = arguments
  | .bindQueue binding => binding ∈ T.bindings

instance : (d : Declaration X Q) → Decidable (T.Admits d)
  | .assertExchange _ => inferInstanceAs (Decidable True)
  | .assertQueue _ _ => inferInstanceAs (Decidable (_ = _))
  | .bindQueue _ => inferInstanceAs (Decidable (_ ∈ _))

/-- The broker has nothing beside the topology. -/
structure Within (b : Broker X Q M) : Prop where
  arguments : ∀ queue arguments, b.queues.lookup queue = some arguments →
    T.arguments queue = arguments
  bindings : ∀ binding ∈ b.bindings, binding ∈ T.bindings

variable {T}

omit [DecidableEq X] in
theorem within_empty : T.Within (Broker.empty : Broker X Q M) where
  arguments := by simp [Broker.empty]
  bindings := by simp [Broker.empty]

/-- What the topology admits is not refused once what it needs is in force,
and what is in force stays so. -/
theorem declare_of_needs {b : Broker X Q M} (hb : T.Within b) {d : Declaration X Q}
    (hd : T.Admits d) (hneeds : b.Meets d) :
    ∃ b', b.declare d = some b' ∧ T.Within b' ∧ b'.Has d ∧ (∀ d', b.Has d' → b'.Has d')
      ∧ b'.messages = b.messages := by
  cases d with
  | assertExchange exchange =>
      refine ⟨_, rfl, ⟨hb.arguments, hb.bindings⟩, List.mem_cons_self, ?_, rfl⟩
      intro d' hd'
      cases d' with
      | assertExchange exchange' => exact List.mem_cons_of_mem _ hd'
      | _ => exact hd'
  | assertQueue queue arguments =>
      cases hlookup : b.queues.lookup queue with
      | some existing =>
          obtain rfl : existing = arguments := (hb.arguments _ _ hlookup).symm.trans hd
          refine ⟨b, ?_, hb, ?_, fun _ h => h, rfl⟩
          · simp [Broker.declare, hlookup]
          · simp [Broker.Has, hlookup]
      | none =>
          refine ⟨{ b with queues := (queue, arguments) :: b.queues }, ?_, ⟨?_, hb.bindings⟩,
            ?_, ?_, rfl⟩
          · simp [Broker.declare, hlookup]
          · intro queue' arguments' hlookup'
            rw [List.lookup_cons] at hlookup'
            split at hlookup'
            · rename_i hsame
              obtain rfl := eq_of_beq hsame
              exact hd.trans (Option.some.inj hlookup')
            · exact hb.arguments _ _ hlookup'
          · simp [Broker.Has]
          · intro d' hd'
            cases d' with
            | assertQueue queue' arguments' =>
                by_cases hsame : queue' = queue
                · simp [Broker.Has, hsame]
                · have hne : (queue' == queue) = false := beq_eq_false_iff_ne.mpr hsame
                  simpa [Broker.Has, List.lookup_cons, hne] using hd'
            | _ => exact hd'
  | bindQueue binding =>
      refine ⟨_, if_pos hneeds, ⟨hb.arguments, ?_⟩, List.mem_cons_self, ?_, rfl⟩
      · exact List.forall_mem_cons.mpr ⟨hd, hb.bindings⟩
      · intro d' hd'
        cases d' with
        | bindQueue binding' => exact List.mem_cons_of_mem _ hd'
        | _ => exact hd'

end Topology

/-! ## Clients -/

section

variable {X Q M : Type} [DecidableEq X] [DecidableEq Q]

/-- What the declaration needs is among those before it. -/
def Declaration.follows (before : List (Declaration X Q)) : Declaration X Q → Bool
  | .bindQueue binding =>
      (before.any fun
        | .assertQueue queue _ => decide (queue = binding.queue)
        | _ => false)
      && decide (.assertExchange binding.exchange ∈ before)
  | _ => true

/-- Every declaration comes after what it needs. -/
def ordered (before : List (Declaration X Q)) : List (Declaration X Q) → Bool
  | [] => true
  | d :: rest => d.follows before && ordered (before ++ [d]) rest

theorem follows_of_ordered {d : Declaration X Q} {rest : List (Declaration X Q)} :
    ∀ {declared before : List (Declaration X Q)}, ordered before (declared ++ d :: rest) = true →
      d.follows (before ++ declared) = true
  | [], before, h => by
      rw [List.append_nil]
      exact ((Bool.and_eq_true _ _).mp h).1
  | first :: declared, before, h => by
      have hrest := follows_of_ordered ((Bool.and_eq_true _ _).mp h).2
      rwa [List.append_assoc] at hrest

theorem Broker.meets_of_follows {b : Broker X Q M} {before : List (Declaration X Q)}
    {d : Declaration X Q} (hbefore : ∀ d ∈ before, b.Has d) (h : d.follows before = true) :
    b.Meets d := by
  cases d with
  | bindQueue binding =>
      obtain ⟨hqueue, hexchange⟩ := (Bool.and_eq_true _ _).mp h
      obtain ⟨d, hd, hasserts⟩ := List.any_eq_true.mp hqueue
      refine ⟨?_, hbefore _ (of_decide_eq_true hexchange)⟩
      cases d with
      | assertQueue queue arguments => exact of_decide_eq_true hasserts ▸ hbefore _ hd
      | _ => cases hasserts
  | _ => trivial

/-- A client has made its declarations up to these. -/
def Broker.Underway (b : Broker X Q M) (declarations rest : List (Declaration X Q)) : Prop :=
  ∃ declared, declarations = declared ++ rest ∧ ∀ d ∈ declared, b.Has d

omit [DecidableEq X] in
theorem Broker.underway_start (b : Broker X Q M) (declarations : List (Declaration X Q)) :
    b.Underway declarations declarations := ⟨[], rfl, by simp⟩

omit [DecidableEq X] in
theorem Broker.Underway.mono {b b' : Broker X Q M} {declarations rest : List (Declaration X Q)}
    (h : b.Underway declarations rest) (hle : ∀ d, b.Has d → b'.Has d) :
    b'.Underway declarations rest := by
  obtain ⟨declared, heq, hhas⟩ := h
  exact ⟨declared, heq, fun d hd => hle d (hhas d hd)⟩

omit [DecidableEq X] in
theorem Broker.Underway.has {b : Broker X Q M} {declarations : List (Declaration X Q)}
    (h : b.Underway declarations []) {d : Declaration X Q} (hd : d ∈ declarations) : b.Has d := by
  obtain ⟨declared, rfl, hhas⟩ := h
  exact hhas d (by simpa using hd)

/-- A client whose declarations are ordered gets the next one through. -/
theorem Topology.declare_underway {T : Topology X Q} {b : Broker X Q M} (hb : T.Within b)
    {declarations rest : List (Declaration X Q)} {d : Declaration X Q}
    (hordered : ordered [] declarations = true) (hadmits : ∀ d ∈ declarations, T.Admits d)
    (h : b.Underway declarations (d :: rest)) :
    ∃ b', b.declare d = some b' ∧ T.Within b' ∧ (∀ d', b.Has d' → b'.Has d')
      ∧ b'.messages = b.messages ∧ b'.Underway declarations rest := by
  obtain ⟨declared, rfl, hhas⟩ := h
  have hneeds := Broker.meets_of_follows hhas (follows_of_ordered hordered)
  obtain ⟨b', hdeclare, hwithin, hnew, hle, hmessages⟩ :=
    declare_of_needs hb (hadmits d (by simp)) hneeds
  refine ⟨b', hdeclare, hwithin, hle, hmessages, declared ++ [d], by simp, fun d' hd' => ?_⟩
  rcases List.mem_append.mp hd' with hold | hlast
  · exact hle d' (hhas d' hold)
  · exact List.mem_singleton.mp hlast ▸ hnew

/-! ## Routing -/

/-- Nothing is routed where the topology does not send it. -/
theorem Topology.Within.routes {T : Topology X Q} {b : Broker X Q M} (hb : T.Within b)
    {exchange : X} {key : String} {queue : Q} (h : b.routes exchange key queue = true) :
    routesBy T.bindings exchange key queue = true := by
  obtain ⟨binding, hmem, hmatch⟩ := List.any_eq_true.mp h
  exact List.any_eq_true.mpr ⟨binding, hb.bindings binding hmem, hmatch⟩

/-- What is routed where, once the bindings of the exchange are declared. -/
theorem Topology.routes_eq {T : Topology X Q} {b : Broker X Q M} (hb : T.Within b) {exchange : X}
    (hbound : ∀ binding ∈ T.bindings, binding.exchange = exchange → b.Has (.bindQueue binding))
    (key : String) (queue : Q) :
    b.routes exchange key queue = routesBy T.bindings exchange key queue := by
  refine Bool.eq_iff_iff.mpr ⟨hb.routes, fun h => ?_⟩
  obtain ⟨binding, hmem, hmatch⟩ := List.any_eq_true.mp h
  have hexchange : binding.exchange = exchange := by
    simp only [Bool.and_eq_true, decide_eq_true_eq] at hmatch
    exact hmatch.1.2
  exact List.any_eq_true.mpr ⟨binding, hbound binding hmem hexchange, hmatch⟩

namespace Broker

variable {b : Broker X Q M} {exchange : X} {key : String} {message : M}

theorem publish_of_mem (h : exchange ∈ b.exchanges) : b.publish exchange key message
    = some { b with
        messages := fun queue =>
          b.messages queue ++ (if b.routes exchange key queue then [message] else []) } :=
  if_pos h

/-- Only messages change, and only in queues that are routed to. -/
theorem publish_cases {b' : Broker X Q M} (h : b.publish exchange key message = some b') :
    b' = { b with
      messages := fun queue =>
        b.messages queue ++ (if b.routes exchange key queue then [message] else []) } := by
  unfold publish at h
  split at h
  · exact (Option.some.inj h).symm
  · cases h

theorem expire_cases {rekey : String → M → M} {queue : Q} {b' : Broker X Q M}
    (h : b.expire rekey queue = some b') :
    ∃ ttl exchange key message rest, b.queues.lookup queue = some ⟨some ttl, some (exchange, key)⟩
      ∧ b.messages queue = message :: rest
      ∧ (b.setQueue queue rest).publish exchange key (rekey key message) = some b' := by
  unfold expire at h
  split at h
  · exact ⟨_, _, _, _, _, ‹_›, ‹_›, h⟩
  · cases h

/-- A message that is routed to one queue. -/
theorem publish_eq_enqueue (h : exchange ∈ b.exchanges) {queue : Q}
    (hroutes : ∀ q, b.routes exchange key q = decide (q = queue)) :
    b.publish exchange key message = some (b.enqueue queue message) := by
  rw [publish_of_mem h, enqueue, setQueue]
  congr 2
  funext q
  by_cases hq : q = queue
  · subst hq
    simp [hroutes]
  · simp [hroutes, hq]

end Broker

/-! ## Contents -/

namespace Broker

variable {b : Broker X Q M} {queue : Q} {queues : List Q} {messages : List M}

omit [DecidableEq X] in
@[simp] theorem setQueue_messages_self : (b.setQueue queue messages).messages queue = messages :=
  Function.update_self ..

omit [DecidableEq X] in
theorem setQueue_messages_of_ne {queue' : Q} (h : queue' ≠ queue) :
    (b.setQueue queue messages).messages queue' = b.messages queue' :=
  Function.update_of_ne h ..

/-- What is in some queues. -/
def contents (b : Broker X Q M) (queues : List Q) : List M := queues.flatMap b.messages

omit [DecidableEq X] in
theorem contents_setQueue_of_not_mem (h : queue ∉ queues) :
    (b.setQueue queue messages).contents queues = b.contents queues := by
  refine List.flatMap_congr fun q hq => setQueue_messages_of_ne ?_
  rintro rfl
  exact h hq

omit [DecidableEq X] in
/-- One of them is changed. -/
theorem contents_setQueue (hnodup : queues.Nodup) (hmem : queue ∈ queues) :
    ((b.setQueue queue messages).contents queues ++ b.messages queue).Perm
      (b.contents queues ++ messages) := by
  induction queues with
  | nil => cases hmem
  | cons first queues ih =>
      obtain ⟨hfirst, hrest⟩ := List.nodup_cons.mp hnodup
      simp only [contents, List.flatMap_cons, List.append_assoc] at ih ⊢
      by_cases hq : queue = first
      · subst hq
        have hsame := @contents_setQueue_of_not_mem _ _ _ _ b _ _ messages hfirst
        simp only [contents] at hsame
        rw [setQueue_messages_self, hsame, ← List.append_assoc]
        exact List.perm_append_comm.trans (List.Perm.append_left _ List.perm_append_comm)
      · rw [setQueue_messages_of_ne (Ne.symm hq)]
        exact (ih hrest ((List.mem_cons.mp hmem).resolve_left hq)).append_left _

end Broker

end

end Amqp
