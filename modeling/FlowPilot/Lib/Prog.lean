import Mathlib.Data.List.Basic

/-!
# Programs that call their environment

Code that runs between calls to something outside it - a database, a broker,
a clock - as a value, so that one definition can be run against any
environment: alone, or interleaved with other programs.

- `Prog` is a tree of calls. A call answers with a result or throws, and the
  program may catch what it throws.
- A `Reply` also says whether a call that threw took effect, which the
  program itself cannot see.
- `Trace` lists the events of one complete run against arbitrary replies.
- `wp` is the weakest precondition of a program in the middle of a history
  of events: under an assumption on replies, every call it makes meets an
  obligation on the history so far, and it ends in one of two
  postconditions. The rules (`wp_bind`, `wp_tryCatch`, `wp_perform`, ...)
  follow the constructors.
- `Safe` and `SafeFrom` are weakest preconditions without an assumption on
  replies and with trivial postconditions.
- `Spec` is what a program does by itself, stated over its own events; it
  needs no history, applies to complete runs (`spec_trace`) and is brought
  into a history by `wp_of_spec`.
-/

/-- How a call ends, seen from outside: it answers, it throws although it
took effect, or it throws and did nothing. -/
inductive Reply (ε β : Type) where
  | ok (b : β)
  | lost (e : ε)
  | failed (e : ε)

namespace Reply

variable {ε β : Type}

/-- What the program sees. -/
def result : Reply ε β → Except ε β
  | ok b => .ok b
  | lost e => .error e
  | failed e => .error e

/-- Whether the call took effect. -/
def applied : Reply ε β → Bool
  | ok _ => true
  | lost _ => true
  | failed _ => false

/-- Whether the call answered. -/
def answered : Reply ε β → Bool
  | ok _ => true
  | lost _ => false
  | failed _ => false

end Reply

/-- A program over the calls `Op`, answered in `Res`, throwing `ε`. -/
inductive Prog (Op : Type) (Res : Op → Type) (ε α : Type) where
  | pure (a : α)
  | throw (e : ε)
  | call (op : Op) (k : Except ε (Res op) → Prog Op Res ε α)

/-- A call together with its reply. -/
structure Event (Op : Type) (Res : Op → Type) (ε : Type) where
  op : Op
  reply : Reply ε (Res op)

namespace Prog

variable {Op : Type} {Res : Op → Type} {ε α β : Type}

def bind : Prog Op Res ε α → (α → Prog Op Res ε β) → Prog Op Res ε β
  | pure a, f => f a
  | throw e, _ => throw e
  | call op k, f => call op fun r => (k r).bind f

def tryCatch : Prog Op Res ε α → (ε → Prog Op Res ε α) → Prog Op Res ε α
  | pure a, _ => pure a
  | throw e, handler => handler e
  | call op k, handler => call op fun r => (k r).tryCatch handler

instance : Monad (Prog Op Res ε) where
  pure := pure
  bind := bind

instance : MonadExceptOf ε (Prog Op Res ε) where
  throw := throw
  tryCatch := tryCatch

/-- Make a call and return its answer. -/
def perform (op : Op) : Prog Op Res ε (Res op) :=
  call op fun
    | .ok b => pure b
    | .error e => throw e

/-! ## Complete runs -/

/-- `Trace p events out`: `p` runs to `out` when its calls are answered as
`events` record. -/
inductive Trace : Prog Op Res ε α → List (Event Op Res ε) → Except ε α → Prop
  | pure (a : α) : Trace (pure a) [] (.ok a)
  | throw (e : ε) : Trace (throw e) [] (.error e)
  | call {op : Op} {k : Except ε (Res op) → Prog Op Res ε α} (reply : Reply ε (Res op))
      {events : List (Event Op Res ε)} {out : Except ε α} :
      Trace (k reply.result) events out → Trace (call op k) (⟨op, reply⟩ :: events) out

/-- What is left of a program that has ended. -/
def ended? : Prog Op Res ε α → Option (Except ε α)
  | pure a => some (.ok a)
  | throw e => some (.error e)
  | call _ _ => none

/-- Whether a program has returned. -/
def returned : Prog Op Res ε α → Bool
  | pure _ => true
  | _ => false

theorem eq_pure_of_returned {q : Prog Op Res ε Unit} (h : q.returned = true) : q = pure () := by
  cases q with
  | pure a => rfl
  | throw e => cases h
  | call op k => cases h

theorem trace_of_ended? : ∀ {q : Prog Op Res ε α} {out : Except ε α}, q.ended? = some out →
    Trace q [] out
  | pure a, _, h => by
      cases h
      exact .pure a
  | throw e, _, h => by
      cases h
      exact .throw e

/-- Every choice of replies gives a complete run. -/
theorem exists_trace (respond : (op : Op) → Reply ε (Res op)) :
    ∀ p : Prog Op Res ε α, ∃ events out, Trace p events out
      ∧ ∀ ev ∈ events, ev.reply = respond ev.op
  | pure a => ⟨[], .ok a, .pure a, by simp⟩
  | throw e => ⟨[], .error e, .throw e, by simp⟩
  | call op k => by
      obtain ⟨events, out, htrace, hall⟩ := exists_trace respond (k (respond op).result)
      exact ⟨_, out, .call (respond op) htrace, by simpa using hall⟩

/-- A run of a sequence is a run of its first part, followed, when that
returned, by a run of the rest. -/
theorem trace_bind {f : α → Prog Op Res ε β} :
    ∀ {p : Prog Op Res ε α} {events : List (Event Op Res ε)} {out : Except ε β},
      Trace (p.bind f) events out →
      (∃ e, Trace p events (.error e) ∧ out = .error e)
      ∨ ∃ a first rest, Trace p first (.ok a) ∧ Trace (f a) rest out ∧ events = first ++ rest
  | pure a, events, _, h => Or.inr ⟨a, [], events, .pure a, h, rfl⟩
  | throw e, _, _, h => by
      cases h with
      | throw => exact Or.inl ⟨e, .throw e, rfl⟩
  | call op k, _, _, h => by
      cases h with
      | call reply h =>
          rcases trace_bind h with ⟨e, htrace, rfl⟩ | ⟨a, first, rest, hfirst, hrest, rfl⟩
          · exact Or.inl ⟨e, .call reply htrace, rfl⟩
          · exact Or.inr ⟨a, _, rest, .call reply hfirst, hrest, rfl⟩

/-- A run that returns and a run of what follows make a run of the
sequence. -/
theorem trace_seq {f : α → Prog Op Res ε β} {a : α} {rest : List (Event Op Res ε)}
    {out : Except ε β} (hrest : Trace (f a) rest out) :
    ∀ {p : Prog Op Res ε α} {first : List (Event Op Res ε)}, Trace p first (.ok a) →
      Trace (p >>= f) (first ++ rest) out
  | pure _, _, h => by
      cases h with
      | pure => exact hrest
  | throw _, _, h => by cases h
  | call op k, _, h => by
      cases h with
      | call reply h => exact .call reply (trace_seq hrest h)

/-- A call alone: it ends as its reply says. -/
theorem trace_perform {op : Op} (reply : Reply ε (Res op)) :
    Trace (perform op) [⟨op, reply⟩] reply.result := by
  refine .call reply ?_
  cases reply with
  | ok b => exact .pure b
  | lost e => exact .throw e
  | failed e => exact .throw e

/-- A run of a call alone. -/
theorem trace_perform_inv {op : Op} {events : List (Event Op Res ε)} {out : Except ε (Res op)}
    (h : Trace (perform op) events out) :
    ∃ reply, events = [⟨op, reply⟩] ∧ out = reply.result := by
  cases h with
  | call reply h =>
      refine ⟨reply, ?_⟩
      cases reply with
      | ok b =>
          cases h
          exact ⟨rfl, rfl⟩
      | lost e =>
          cases h
          exact ⟨rfl, rfl⟩
      | failed e =>
          cases h
          exact ⟨rfl, rfl⟩

/-- A call that is answered, and a run of what follows. -/
theorem trace_perform_seq {op : Op} {f : Res op → Prog Op Res ε β} {b : Res op}
    {rest : List (Event Op Res ε)} {out : Except ε β} (h : Trace (f b) rest out) :
    Trace (perform op >>= f) (⟨op, .ok b⟩ :: rest) out :=
  .call (.ok b) h

/-- A run that starts with a call: it goes on if the call answered, and is
over otherwise. -/
theorem trace_perform_bind {op : Op} {f : Res op → Prog Op Res ε β}
    {events : List (Event Op Res ε)} {out : Except ε β}
    (h : Trace (perform op >>= f) events out) :
    ∃ reply rest, events = ⟨op, reply⟩ :: rest
      ∧ ((∃ b, reply = .ok b ∧ Trace (f b) rest out)
        ∨ ∃ e, (reply = .lost e ∨ reply = .failed e) ∧ rest = [] ∧ out = .error e) := by
  cases h with
  | call reply h =>
      cases reply with
      | ok b => exact ⟨_, _, rfl, Or.inl ⟨b, rfl, h⟩⟩
      | lost e =>
          cases h with
          | throw => exact ⟨_, _, rfl, Or.inr ⟨e, Or.inl rfl, rfl, rfl⟩⟩
      | failed e =>
          cases h with
          | throw => exact ⟨_, _, rfl, Or.inr ⟨e, Or.inr rfl, rfl, rfl⟩⟩

/-- A run of a guarded program is a run of its body, followed, when that
threw, by a run of the handler. -/
theorem trace_tryCatch {handler : ε → Prog Op Res ε α} :
    ∀ {p : Prog Op Res ε α} {events : List (Event Op Res ε)} {out : Except ε α},
      Trace (p.tryCatch handler) events out →
      (∃ a, Trace p events (.ok a) ∧ out = .ok a)
      ∨ ∃ e first rest, Trace p first (.error e) ∧ Trace (handler e) rest out
        ∧ events = first ++ rest
  | pure a, _, _, h => by
      cases h with
      | pure => exact Or.inl ⟨a, .pure a, rfl⟩
  | throw e, events, _, h => Or.inr ⟨e, [], events, .throw e, h, rfl⟩
  | call op k, _, _, h => by
      cases h with
      | call reply h =>
          rcases trace_tryCatch h with ⟨a, htrace, rfl⟩ | ⟨e, first, rest, hfirst, hrest, rfl⟩
          · exact Or.inl ⟨a, .call reply htrace, rfl⟩
          · exact Or.inr ⟨e, _, rest, .call reply hfirst, hrest, rfl⟩

/-- The events of a run determine how it ends. -/
theorem Trace.out_unique {p : Prog Op Res ε α} {events : List (Event Op Res ε)}
    {out out' : Except ε α} (h : Trace p events out) (h' : Trace p events out') : out = out' := by
  induction h with
  | pure a =>
      cases h'
      rfl
  | throw e =>
      cases h'
      rfl
  | call reply _ ih =>
      cases h' with
      | call _ h' => exact ih h'

/-- A complete run has no other that goes on. -/
theorem Trace.rest_eq_nil {p : Prog Op Res ε α} {first rest : List (Event Op Res ε)}
    {out out' : Except ε α} (h : Trace p first out) (h' : Trace p (first ++ rest) out') :
    rest = [] := by
  induction h with
  | pure a =>
      cases h'
      rfl
  | throw e =>
      cases h'
      rfl
  | call reply _ ih =>
      cases h' with
      | call _ h' => exact ih h'

/-- A run of the first part that throws is one of the sequence. -/
theorem trace_bind_error {f : α → Prog Op Res ε β} {e : ε} :
    ∀ {p : Prog Op Res ε α} {events : List (Event Op Res ε)}, Trace p events (.error e) →
      Trace (p >>= f) events (.error e)
  | pure _, _, h => by cases h
  | throw _, _, h => by
      cases h with
      | throw => exact .throw e
  | call op k, _, h => by
      cases h with
      | call reply h => exact .call reply (trace_bind_error h)

/-- After a run of the body that throws, the handler runs. -/
theorem trace_tryCatch_error {handler : ε → Prog Op Res ε α} {e : ε}
    {rest : List (Event Op Res ε)} {out : Except ε α} :
    ∀ {p : Prog Op Res ε α} {first : List (Event Op Res ε)}, Trace p first (.error e) →
      (Trace (p.tryCatch handler) (first ++ rest) out ↔ Trace (handler e) rest out)
  | pure _, _, h => by cases h
  | throw _, _, h => by
      cases h with
      | throw => exact Iff.rfl
  | call op k, _, h => by
      cases h with
      | call reply h =>
          rw [← trace_tryCatch_error h]
          constructor
          · intro htrace
            cases htrace with
            | call _ htrace => exact htrace
          · intro htrace
            exact .call reply htrace

/-! ## Weakest preconditions -/

/-- The events of a program so far, oldest first. -/
abbrev History (Op : Type) (Res : Op → Type) (ε : Type) := List (Event Op Res ε)

/-- Every event of `events` is related by `R` to the history before it. -/
def Along (R : History Op Res ε → Event Op Res ε → Prop) :
    History Op Res ε → List (Event Op Res ε) → Prop
  | _, [] => True
  | h, ev :: events => R h ev ∧ Along R (h ++ [ev]) events

theorem along_append {R : History Op Res ε → Event Op Res ε → Prop}
    {first rest : List (Event Op Res ε)} {h : History Op Res ε} :
    Along R h (first ++ rest) ↔ Along R h first ∧ Along R (h ++ first) rest := by
  induction first generalizing h with
  | nil => simp [Along]
  | cons ev first ih =>
      simp only [List.cons_append, Along, ih, and_assoc, List.append_assoc, List.nil_append]

theorem along_mono {R R' : History Op Res ε → Event Op Res ε → Prop}
    (hR : ∀ h ev, R h ev → R' h ev) :
    ∀ {events : List (Event Op Res ε)} {h : History Op Res ε}, Along R h events → Along R' h events
  | [], _, _ => trivial
  | _ :: _, _, ha => ⟨hR _ _ ha.1, along_mono hR ha.2⟩

/-- What holds along a list holds at each of its events. -/
theorem Along.mem {R : History Op Res ε → Event Op Res ε → Prop} {h events : History Op Res ε}
    (ha : Along R h events) {ev : Event Op Res ε} (hev : ev ∈ events) :
    ∃ first rest, events = first ++ ev :: rest ∧ R (h ++ first) ev := by
  obtain ⟨first, rest, rfl⟩ := List.append_of_mem hev
  exact ⟨first, rest, rfl, (along_append.mp ha).2.1⟩

section Wp

variable (A : History Op Res ε → Event Op Res ε → Prop)
  (P : History Op Res ε → Op → Prop)

/-- Under the assumption `A` on replies, every call meets the obligation `P`
and the program ends in `Q` (returned) or `E` (thrown). -/
def wp : Prog Op Res ε α → History Op Res ε → (α → History Op Res ε → Prop) →
    (ε → History Op Res ε → Prop) → Prop
  | pure a, h, Q, _ => Q a h
  | throw e, h, _, E => E e h
  | call op k, h, Q, E => P h op ∧ ∀ reply, A h ⟨op, reply⟩ →
      wp (k reply.result) (h ++ [⟨op, reply⟩]) Q E

variable {A P} {h : History Op Res ε}

theorem wp_bind {f : α → Prog Op Res ε β} {Q : β → History Op Res ε → Prop}
    {E : ε → History Op Res ε → Prop} :
    ∀ {p : Prog Op Res ε α} {h : History Op Res ε},
      wp A P p h (fun a h' => wp A P (f a) h' Q E) E → wp A P (p >>= f) h Q E
  | pure _, _, hp => hp
  | throw _, _, hp => hp
  | call _ _, _, hp => ⟨hp.1, fun reply hA => wp_bind (hp.2 reply hA)⟩

theorem wp_tryCatch {handler : ε → Prog Op Res ε α} {Q : α → History Op Res ε → Prop}
    {E : ε → History Op Res ε → Prop} :
    ∀ {p : Prog Op Res ε α} {h : History Op Res ε},
      wp A P p h Q (fun e h' => wp A P (handler e) h' Q E) → wp A P (p.tryCatch handler) h Q E
  | pure _, _, hp => hp
  | throw _, _, hp => hp
  | call _ _, _, hp => ⟨hp.1, fun reply hA => wp_tryCatch (hp.2 reply hA)⟩

theorem wp_mono {Q Q' : α → History Op Res ε → Prop} {E E' : ε → History Op Res ε → Prop}
    (hQ : ∀ a h, Q a h → Q' a h) (hE : ∀ e h, E e h → E' e h) :
    ∀ {p : Prog Op Res ε α} {h : History Op Res ε}, wp A P p h Q E → wp A P p h Q' E'
  | pure a, h, hp => hQ a h hp
  | throw e, h, hp => hE e h hp
  | call _ _, _, hp => ⟨hp.1, fun reply hA => wp_mono hQ hE (hp.2 reply hA)⟩

theorem wp_perform {op : Op} {Q : Res op → History Op Res ε → Prop}
    {E : ε → History Op Res ε → Prop} (hP : P h op)
    (hok : ∀ b, A h ⟨op, .ok b⟩ → Q b (h ++ [⟨op, .ok b⟩]))
    (hlost : ∀ e, A h ⟨op, .lost e⟩ → E e (h ++ [⟨op, .lost e⟩]))
    (hfailed : ∀ e, A h ⟨op, .failed e⟩ → E e (h ++ [⟨op, .failed e⟩])) :
    wp A P (perform op) h Q E := by
  refine ⟨hP, fun reply hA => ?_⟩
  cases reply with
  | ok b => exact hok b hA
  | lost e => exact hlost e hA
  | failed e => exact hfailed e hA

/-- The history only grows. -/
theorem wp_grows {Q : α → History Op Res ε → Prop} {E : ε → History Op Res ε → Prop} :
    ∀ {p : Prog Op Res ε α} {h : History Op Res ε}, wp A P p h Q E →
      wp A P p h (fun a h' => h <+: h' ∧ Q a h') (fun e h' => h <+: h' ∧ E e h')
  | pure _, h, hp => ⟨List.prefix_refl h, hp⟩
  | throw _, h, hp => ⟨List.prefix_refl h, hp⟩
  | call _ _, h, hp => ⟨hp.1, fun reply hA =>
      wp_mono (fun _ _ h' => ⟨(List.prefix_append h _).trans h'.1, h'.2⟩)
        (fun _ _ h' => ⟨(List.prefix_append h _).trans h'.1, h'.2⟩) (wp_grows (hp.2 reply hA))⟩

/-! ### Obligations under arbitrary replies -/

/-- From the history `h` on every call meets `P`, whatever the replies. -/
def SafeFrom (P : History Op Res ε → Op → Prop) (h : History Op Res ε) (p : Prog Op Res ε α) :
    Prop :=
  wp (fun _ _ => True) P p h (fun _ _ => True) (fun _ _ => True)

/-- The same from every history on. -/
def Safe (P : History Op Res ε → Op → Prop) (p : Prog Op Res ε α) : Prop :=
  ∀ h, SafeFrom P h p

theorem safe_pure (a : α) : Safe P (pure a : Prog Op Res ε α) := fun _ => trivial

theorem safe_throw (e : ε) : Safe P (throw e : Prog Op Res ε α) := fun _ => trivial

theorem safe_perform {op : Op} (hP : ∀ h, P h op) : Safe P (perform op) := fun h =>
  wp_perform (hP h) (fun _ _ => trivial) (fun _ _ => trivial) (fun _ _ => trivial)

/-- A call, and what follows it when it answers. -/
theorem safeFrom_perform_bind {op : Op} {f : Res op → Prog Op Res ε β} (hP : P h op)
    (hf : ∀ b, SafeFrom P (h ++ [⟨op, .ok b⟩]) (f b)) : SafeFrom P h (perform op >>= f) :=
  wp_bind (wp_perform hP (fun b _ => hf b) (fun _ _ => trivial) (fun _ _ => trivial))

theorem SafeFrom.bind {f : α → Prog Op Res ε β} {p : Prog Op Res ε α} (hp : SafeFrom P h p)
    (hf : ∀ a h', h <+: h' → SafeFrom P h' (f a)) : SafeFrom P h (p >>= f) :=
  wp_bind (wp_mono (fun a h' hle => hf a h' hle.1) (fun _ _ _ => trivial) (wp_grows hp))

theorem SafeFrom.tryCatch {handler : ε → Prog Op Res ε α} {p : Prog Op Res ε α}
    (hp : SafeFrom P h p) (hhandler : ∀ e h', h <+: h' → SafeFrom P h' (handler e)) :
    SafeFrom P h (p.tryCatch handler) :=
  wp_tryCatch (wp_mono (fun _ _ _ => trivial) (fun e h' hle => hhandler e h' hle.1)
    (wp_grows hp))

/-- Where every call is allowed, and stays so, every program is safe. -/
theorem safeFrom_of_stable {K : History Op Res ε → Prop} (hstable : ∀ h ev, K h → K (h ++ [ev]))
    (hP : ∀ h op, K h → P h op) :
    ∀ {p : Prog Op Res ε α} {h : History Op Res ε}, K h → SafeFrom P h p
  | pure _, _, _ => trivial
  | throw _, _, _ => trivial
  | call _ _, h, hK =>
      ⟨hP h _ hK, fun _ _ => safeFrom_of_stable hstable hP (hstable h _ hK)⟩

theorem Safe.bind {f : α → Prog Op Res ε β} {p : Prog Op Res ε α} (hp : Safe P p)
    (hf : ∀ a, Safe P (f a)) : Safe P (p >>= f) :=
  fun h => (hp h).bind fun a h' _ => hf a h'

theorem Safe.tryCatch {handler : ε → Prog Op Res ε α} {p : Prog Op Res ε α} (hp : Safe P p)
    (hhandler : ∀ e, Safe P (handler e)) : Safe P (p.tryCatch handler) :=
  fun h => (hp h).tryCatch fun e h' _ => hhandler e h'

end Wp

/-! ## Specifications -/

/-- What a program does by itself, in terms of its own events: it makes only
calls of `I`, whatever the replies, and ends in `Q` (returned) or `E`
(thrown). -/
def Spec (I : Op → Prop) : Prog Op Res ε α → (α → List (Event Op Res ε) → Prop) →
    (ε → List (Event Op Res ε) → Prop) → Prop
  | pure a, Q, _ => Q a []
  | throw e, _, E => E e []
  | call op k, Q, E => I op ∧ ∀ reply, Spec I (k reply.result)
      (fun a events => Q a (⟨op, reply⟩ :: events))
      (fun e events => E e (⟨op, reply⟩ :: events))

/-- A program that makes only calls of `I`. -/
def Issues (I : Op → Prop) (p : Prog Op Res ε α) : Prop :=
  Spec I p (fun _ _ => True) (fun _ _ => True)

section Spec

variable {I J : Op → Prop} {Q Q' : α → List (Event Op Res ε) → Prop}
  {E E' : ε → List (Event Op Res ε) → Prop}

theorem spec_mono (hIJ : ∀ op, I op → J op) :
    ∀ {p : Prog Op Res ε α} {Q Q' : α → List (Event Op Res ε) → Prop}
      {E E' : ε → List (Event Op Res ε) → Prop}, Spec I p Q E →
      (∀ a events, Q a events → Q' a events) → (∀ e events, E e events → E' e events) →
      Spec J p Q' E'
  | pure a, _, _, _, _, hp, hQ, _ => hQ a [] hp
  | throw e, _, _, _, _, hp, _, hE => hE e [] hp
  | call op _, _, _, _, _, hp, hQ, hE =>
      ⟨hIJ op hp.1, fun reply => spec_mono hIJ (hp.2 reply) (fun a _ => hQ a _) (fun e _ => hE e _)⟩

theorem spec_conseq {p : Prog Op Res ε α} (hp : Spec I p Q E)
    (hQ : ∀ a events, Q a events → Q' a events) (hE : ∀ e events, E e events → E' e events) :
    Spec I p Q' E' :=
  spec_mono (fun _ h => h) hp hQ hE

theorem spec_pure {a : α} (h : Q a []) : Spec I (pure a : Prog Op Res ε α) Q E := h

theorem spec_bind {f : α → Prog Op Res ε β} :
    ∀ {p : Prog Op Res ε α} {Q : β → List (Event Op Res ε) → Prop}
      {E : ε → List (Event Op Res ε) → Prop},
      Spec I p (fun a events => Spec I (f a) (fun b rest => Q b (events ++ rest))
        (fun e rest => E e (events ++ rest))) E → Spec I (p >>= f) Q E
  | pure _, _, _, hp => hp
  | throw _, _, _, hp => hp
  | call _ _, _, _, hp => ⟨hp.1, fun reply => spec_bind (hp.2 reply)⟩

theorem spec_tryCatch {handler : ε → Prog Op Res ε α} :
    ∀ {p : Prog Op Res ε α} {Q : α → List (Event Op Res ε) → Prop}
      {E : ε → List (Event Op Res ε) → Prop},
      Spec I p Q (fun e events => Spec I (handler e) (fun b rest => Q b (events ++ rest))
        (fun e' rest => E e' (events ++ rest))) → Spec I (p.tryCatch handler) Q E
  | pure _, _, _, hp => hp
  | throw _, _, _, hp => hp
  | call _ _, _, _, hp => ⟨hp.1, fun reply => spec_tryCatch (hp.2 reply)⟩

theorem spec_perform {op : Op} {Q : Res op → List (Event Op Res ε) → Prop} (hI : I op)
    (hok : ∀ b, Q b [⟨op, .ok b⟩]) (hlost : ∀ e, E e [⟨op, .lost e⟩])
    (hfailed : ∀ e, E e [⟨op, .failed e⟩]) : Spec I (perform op) Q E := by
  refine ⟨hI, fun reply => ?_⟩
  cases reply with
  | ok b => exact hok b
  | lost e => exact hlost e
  | failed e => exact hfailed e

/-- The calls made are part of both postconditions. -/
theorem spec_ops : ∀ {p : Prog Op Res ε α} {Q : α → List (Event Op Res ε) → Prop}
    {E : ε → List (Event Op Res ε) → Prop}, Spec I p Q E →
    Spec I p (fun a events => Q a events ∧ ∀ ev ∈ events, I ev.op)
      (fun e events => E e events ∧ ∀ ev ∈ events, I ev.op)
  | pure _, _, _, hp => ⟨hp, by simp⟩
  | throw _, _, _, hp => ⟨hp, by simp⟩
  | call _ _, _, _, hp => ⟨hp.1, fun reply => spec_conseq (spec_ops (hp.2 reply))
      (fun _ _ h => ⟨h.1, List.forall_mem_cons.mpr ⟨hp.1, h.2⟩⟩)
      (fun _ _ h => ⟨h.1, List.forall_mem_cons.mpr ⟨hp.1, h.2⟩⟩)⟩

theorem issues_pure (a : α) : Issues I (pure a : Prog Op Res ε α) := trivial

theorem issues_throw (e : ε) : Issues I (throw e : Prog Op Res ε α) := trivial

theorem issues_mono (hIJ : ∀ op, I op → J op) {p : Prog Op Res ε α} (hp : Issues I p) :
    Issues J p :=
  spec_mono hIJ hp (fun _ _ _ => trivial) (fun _ _ _ => trivial)

theorem issues_bind {f : α → Prog Op Res ε β} {p : Prog Op Res ε α} (hp : Issues I p)
    (hf : ∀ a, Issues I (f a)) : Issues I (p >>= f) :=
  spec_bind (spec_conseq hp (fun a _ _ => hf a) (fun _ _ _ => trivial))

theorem issues_tryCatch {handler : ε → Prog Op Res ε α} {p : Prog Op Res ε α} (hp : Issues I p)
    (hhandler : ∀ e, Issues I (handler e)) : Issues I (p.tryCatch handler) :=
  spec_tryCatch (spec_conseq hp (fun _ _ _ => trivial) (fun e _ _ => hhandler e))

theorem issues_perform {op : Op} (h : I op) :
    Issues I (perform op : Prog Op Res ε (Res op)) :=
  spec_perform h (fun _ => trivial) (fun _ => trivial) (fun _ => trivial)

/-- A program that throws exactly if one of its calls does. -/
def Propagates (I : Op → Prop) (p : Prog Op Res ε α) : Prop :=
  Spec I p (fun _ events => ∀ ev ∈ events, ev.reply.answered = true)
    (fun _ events => ∃ ev ∈ events, ev.reply.answered = false)

theorem propagates_pure (a : α) : Propagates I (pure a : Prog Op Res ε α) :=
  spec_pure (by simp)

theorem propagates_perform {op : Op} (hop : I op) :
    Propagates I (perform op : Prog Op Res ε (Res op)) :=
  spec_perform hop (fun _ => by simp [Reply.answered]) (fun _ => by simp [Reply.answered])
    (fun _ => by simp [Reply.answered])

theorem propagates_bind {f : α → Prog Op Res ε β} {p : Prog Op Res ε α} (hp : Propagates I p)
    (hf : ∀ a, Propagates I (f a)) : Propagates I (p >>= f) :=
  spec_bind (spec_conseq hp
    (fun a _ hall => spec_conseq (hf a)
      (fun _ _ hrest => List.forall_mem_append.mpr ⟨hall, hrest⟩)
      (fun _ _ ⟨ev, hev, hthrew⟩ => ⟨ev, List.mem_append_right _ hev, hthrew⟩))
    (fun _ _ h => h))

/-- A specification holds of every complete run. -/
theorem spec_trace : ∀ {p : Prog Op Res ε α} {Q : α → List (Event Op Res ε) → Prop}
    {E : ε → List (Event Op Res ε) → Prop} {events : List (Event Op Res ε)}
    {out : Except ε α}, Spec I p Q E → Trace p events out →
    (∀ ev ∈ events, I ev.op) ∧ match out with
      | .ok a => Q a events
      | .error e => E e events
  | pure _, _, _, _, _, hp, htrace => by
      cases htrace with
      | pure => exact ⟨by simp, hp⟩
  | throw _, _, _, _, _, hp, htrace => by
      cases htrace with
      | throw => exact ⟨by simp, hp⟩
  | call op k, _, _, _, out, hp, htrace => by
      cases htrace with
      | call reply htrace =>
          obtain ⟨hops, hout⟩ := spec_trace (hp.2 reply) htrace
          exact ⟨List.forall_mem_cons.mpr ⟨hp.1, hops⟩, by cases out <;> exact hout⟩

/-- What holds of every complete run is a specification. -/
theorem spec_of_traces : ∀ {p : Prog Op Res ε α} {Q : α → List (Event Op Res ε) → Prop}
    {E : ε → List (Event Op Res ε) → Prop}, (∀ a events, Trace p events (.ok a) → Q a events) →
    (∀ e events, Trace p events (.error e) → E e events) → Spec (fun _ => True) p Q E
  | pure a, _, _, hQ, _ => hQ a [] (.pure a)
  | throw e, _, _, _, hE => hE e [] (.throw e)
  | call _ _, _, _, hQ, hE => ⟨trivial, fun reply => spec_of_traces
      (fun a _ h => hQ a _ (.call reply h)) (fun e _ h => hE e _ (.call reply h))⟩

/-- A specification extends a history, when its calls are allowed there. -/
theorem wp_of_spec {A : History Op Res ε → Event Op Res ε → Prop}
    {P : History Op Res ε → Op → Prop} :
    ∀ {p : Prog Op Res ε α} {Q : α → List (Event Op Res ε) → Prop}
      {E : ε → List (Event Op Res ε) → Prop} {h : History Op Res ε}, Spec I p Q E →
      (∀ events op, (∀ ev ∈ events, I ev.op) → I op → P (h ++ events) op) →
      wp A P p h
        (fun a h' => ∃ events, h' = h ++ events ∧ (∀ ev ∈ events, I ev.op) ∧ Q a events)
        (fun e h' => ∃ events, h' = h ++ events ∧ (∀ ev ∈ events, I ev.op) ∧ E e events)
  | pure a, _, _, _, hp, _ => ⟨[], by simp, by simp, hp⟩
  | throw e, _, _, _, hp, _ => ⟨[], by simp, by simp, hp⟩
  | call op k, Q, E, h, hp, hP => by
      refine ⟨by simpa using hP [] op (by simp) hp.1, fun reply _ => ?_⟩
      have hrest := wp_of_spec (A := A) (P := P) (h := h ++ [⟨op, reply⟩]) (hp.2 reply)
        fun events op' hall hop => by
          simpa using hP (⟨op, reply⟩ :: events) op' (List.forall_mem_cons.mpr ⟨hp.1, hall⟩) hop
      refine wp_mono ?_ ?_ hrest
      · rintro a h' ⟨events, rfl, hall, hQ⟩
        exact ⟨⟨op, reply⟩ :: events, by simp, List.forall_mem_cons.mpr ⟨hp.1, hall⟩, hQ⟩
      · rintro e h' ⟨events, rfl, hall, hE⟩
        exact ⟨⟨op, reply⟩ :: events, by simp, List.forall_mem_cons.mpr ⟨hp.1, hall⟩, hE⟩

/-- What the calls of a program are is known of what it adds to a history. -/
theorem wp_issues {A : History Op Res ε → Event Op Res ε → Prop}
    {P : History Op Res ε → Op → Prop} :
    ∀ {p : Prog Op Res ε α} {Q : α → History Op Res ε → Prop} {E : ε → History Op Res ε → Prop}
      {h : History Op Res ε}, Issues I p → wp A P p h Q E →
      wp A P p h
        (fun a h' => ∃ events, h' = h ++ events ∧ (∀ ev ∈ events, I ev.op) ∧ Q a h')
        (fun e h' => ∃ events, h' = h ++ events ∧ (∀ ev ∈ events, I ev.op) ∧ E e h')
  | pure _, _, _, _, _, hp => ⟨[], by simp, by simp, hp⟩
  | throw _, _, _, _, _, hp => ⟨[], by simp, by simp, hp⟩
  | call op k, Q, E, h, hI, hp => by
      refine ⟨hp.1, fun reply hA => ?_⟩
      refine wp_mono ?_ ?_ (wp_issues (hI.2 reply) (hp.2 reply hA))
      · rintro a h' ⟨events, rfl, hall, hQ⟩
        exact ⟨⟨op, reply⟩ :: events, by simp, List.forall_mem_cons.mpr ⟨hI.1, hall⟩, hQ⟩
      · rintro e h' ⟨events, rfl, hall, hE⟩
        exact ⟨⟨op, reply⟩ :: events, by simp, List.forall_mem_cons.mpr ⟨hI.1, hall⟩, hE⟩

/-- What a program adds to a history is a complete run of it. -/
theorem wp_traces {A : History Op Res ε → Event Op Res ε → Prop}
    {P : History Op Res ε → Op → Prop} :
    ∀ {p : Prog Op Res ε α} {Q : α → History Op Res ε → Prop} {E : ε → History Op Res ε → Prop}
      {h : History Op Res ε}, wp A P p h Q E →
      wp A P p h (fun a h' => ∃ events, h' = h ++ events ∧ Trace p events (.ok a) ∧ Q a h')
        (fun e h' => ∃ events, h' = h ++ events ∧ Trace p events (.error e) ∧ E e h')
  | pure a, _, _, _, hp => ⟨[], by simp, .pure a, hp⟩
  | throw e, _, _, _, hp => ⟨[], by simp, .throw e, hp⟩
  | call op k, Q, E, h, hp => by
      refine ⟨hp.1, fun reply hA => wp_mono ?_ ?_ (wp_traces (hp.2 reply hA))⟩
      · rintro a h' ⟨events, rfl, htrace, hQ⟩
        exact ⟨⟨op, reply⟩ :: events, by simp, .call reply htrace, hQ⟩
      · rintro e h' ⟨events, rfl, htrace, hE⟩
        exact ⟨⟨op, reply⟩ :: events, by simp, .call reply htrace, hE⟩

/-- What follows a program that makes only calls of `I` starts from the
history with such calls added. -/
theorem SafeFrom.bind_issues {P : History Op Res ε → Op → Prop} {h : History Op Res ε}
    {f : α → Prog Op Res ε β} {p : Prog Op Res ε α} (hp : SafeFrom P h p) (hI : Issues I p)
    (hf : ∀ a events, (∀ ev ∈ events, I ev.op) → SafeFrom P (h ++ events) (f a)) :
    SafeFrom P h (p >>= f) := by
  refine wp_bind (wp_mono ?_ (fun _ _ _ => trivial) (wp_issues hI hp))
  rintro a h' ⟨events, rfl, hall, -⟩
  exact hf a events hall

/-- A program that makes only allowed calls is safe. -/
theorem safe_of_spec {P : History Op Res ε → Op → Prop} {p : Prog Op Res ε α}
    (hp : Spec I p Q E) (hP : ∀ h op, I op → P h op) : Safe P p := fun _ =>
  wp_mono (fun _ _ _ => trivial) (fun _ _ _ => trivial)
    (wp_of_spec hp fun _ op _ hop => hP _ op hop)

end Spec

/-! ## Programs with further calls -/

section Further

variable {Op' : Type} {R : Op' → Type}

/-- A program where more calls can be made than it makes. -/
def inl : Prog Op Res ε α → Prog (Op ⊕ Op') (Sum.elim Res R) ε α
  | pure a => pure a
  | throw e => throw e
  | call op k => call (.inl op) fun r => (k r).inl

/-- Its events there. -/
def eventInl (ev : Event Op Res ε) : Event (Op ⊕ Op') (Sum.elim Res R) ε :=
  ⟨.inl ev.op, ev.reply⟩

theorem inl_tryCatch {handler : ε → Prog Op Res ε α} : ∀ {p : Prog Op Res ε α},
    (p.tryCatch handler).inl (R := R) = p.inl.tryCatch fun e => (handler e).inl
  | pure _ => rfl
  | throw _ => rfl
  | call _ _ => congrArg (call _) (funext fun _ => inl_tryCatch)

theorem inl_perform_bind {op : Op} {f : Res op → Prog Op Res ε α} :
    (perform op >>= f).inl (R := R)
      = @perform (Op ⊕ Op') (Sum.elim Res R) ε (.inl op) >>= fun b => (f b).inl := by
  refine congrArg (call _) (funext fun reply => ?_)
  cases reply <;> rfl

/-- It makes the same calls and no others. -/
theorem spec_inl {I : Op → Prop} : ∀ {p : Prog Op Res ε α}
    {Q : α → List (Event Op Res ε) → Prop} {E : ε → List (Event Op Res ε) → Prop}, Spec I p Q E →
    Spec (Sum.elim I fun _ => False) (p.inl (R := R))
      (fun a events => ∃ events', events = events'.map eventInl ∧ Q a events')
      (fun e events => ∃ events', events = events'.map eventInl ∧ E e events')
  | pure _, _, _, hp => ⟨[], rfl, hp⟩
  | throw _, _, _, hp => ⟨[], rfl, hp⟩
  | call op k, _, _, hp => ⟨hp.1, fun reply => spec_conseq (spec_inl (hp.2 reply))
      (fun _ _ ⟨events', h, hQ⟩ => ⟨⟨op, reply⟩ :: events', by rw [h]; rfl, hQ⟩)
      (fun _ _ ⟨events', h, hE⟩ => ⟨⟨op, reply⟩ :: events', by rw [h]; rfl, hE⟩)⟩

/-- It meets there what it meets by itself. -/
theorem wp_inl {A : History Op Res ε → Event Op Res ε → Prop} {P : History Op Res ε → Op → Prop}
    {A' : History (Op ⊕ Op') (Sum.elim Res R) ε → Event (Op ⊕ Op') (Sum.elim Res R) ε → Prop}
    {P' : History (Op ⊕ Op') (Sum.elim Res R) ε → Op ⊕ Op' → Prop}
    {Q : α → History (Op ⊕ Op') (Sum.elim Res R) ε → Prop}
    {E : ε → History (Op ⊕ Op') (Sum.elim Res R) ε → Prop}
    (hA : ∀ h ev, A' (h.map eventInl) (eventInl ev) → A h ev)
    (hP : ∀ h op, P h op → P' (h.map eventInl) (.inl op)) :
    ∀ {p : Prog Op Res ε α} {h : History Op Res ε},
      wp A P p h (fun a h => Q a (h.map eventInl)) (fun e h => E e (h.map eventInl)) →
      wp A' P' p.inl (h.map eventInl) Q E
  | pure _, _, hp => hp
  | throw _, _, hp => hp
  | call op k, h, hp => by
      refine ⟨hP h op hp.1, fun reply hreply => ?_⟩
      have hrest := wp_inl hA hP (hp.2 reply (hA h ⟨op, reply⟩ hreply))
      rwa [List.map_append] at hrest

end Further

/-! ## Marked calls -/

section Marked

variable {M : Type}

/-- The program with a mark on each of its calls. -/
def mark (m : M) : Prog Op Res ε α → Prog (M × Op) (fun op => Res op.2) ε α
  | pure a => pure a
  | throw e => throw e
  | call op k => call (m, op) fun r => (k r).mark m

/-- The event without its mark. -/
def unmark (ev : Event (M × Op) (fun op => Res op.2) ε) : Event Op Res ε := ⟨ev.op.2, ev.reply⟩

/-- With the marks it meets what it meets without, and every call has its
mark. -/
theorem wp_mark {m : M} {A : History Op Res ε → Event Op Res ε → Prop}
    {P : History Op Res ε → Op → Prop} {Q : α → History Op Res ε → Prop}
    {E : ε → History Op Res ε → Prop} :
    ∀ {p : Prog Op Res ε α} {h : History (M × Op) (fun op => Res op.2) ε},
      wp A P p (h.map unmark) Q E →
      wp (fun h ev => A (h.map unmark) (unmark ev))
        (fun h op => op.1 = m ∧ P (h.map unmark) op.2) (p.mark m) h
        (fun a h => Q a (h.map unmark)) (fun e h => E e (h.map unmark))
  | pure _, _, hp => hp
  | throw _, _, hp => hp
  | call op k, h, hp => by
      refine ⟨⟨rfl, hp.1⟩, fun reply hreply => wp_mark ?_⟩
      have hrest := hp.2 reply hreply
      rwa [List.map_append]

end Marked

/-! ## Without interruption -/

/-- What a program comes to when `answer` answers its calls. -/
def interpret (answer : (op : Op) → Except ε (Res op)) : Prog Op Res ε α → Except ε α
  | pure a => .ok a
  | throw e => .error e
  | call op k => (k (answer op)).interpret answer

theorem interpret_bind {answer : (op : Op) → Except ε (Res op)} {f : α → Prog Op Res ε β} :
    ∀ {p : Prog Op Res ε α},
      (p >>= f).interpret answer = p.interpret answer >>= fun a => (f a).interpret answer
  | pure _ => rfl
  | throw _ => rfl
  | call op k => interpret_bind (p := k (answer op))

theorem interpret_perform {answer : (op : Op) → Except ε (Res op)} {op : Op} :
    (perform op).interpret answer = answer op := by
  unfold perform interpret
  cases answer op <;> rfl

theorem interpret_inl {Op' : Type} {R : Op' → Type}
    {answer : (op : Op ⊕ Op') → Except ε (Sum.elim Res R op)} :
    ∀ {p : Prog Op Res ε α}, p.inl.interpret answer = p.interpret fun op => answer (.inl op)
  | pure _ => rfl
  | throw _ => rfl
  | call op k => interpret_inl (p := k (answer (.inl op)))

end Prog
