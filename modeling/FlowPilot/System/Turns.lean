import FlowPilot.System.Scripts

/-!
# Scripted interleavings

Runs of several threads that take turns, found by evaluation. A turn starts
a thread, runs one for a number of calls, or is a step of the world; playing
turns gives the labels of the run along with its last state. In these runs
any foreign message may arrive, such as a second copy of a command.
-/

namespace FlowPilot

open Prog hiding pure throw bind tryCatch

/-- The environment of scripted runs, open to foreign messages. -/
def openEnvironment (row : WorkflowExecutionRow) : Environment :=
  { scriptEnvironment row with arrives := fun _ => True }

inductive Turn where
  | arrive (message : ConsumeMessage)
  /-- The thread takes the first command of the queue. -/
  | deliver (t : Nat)
  | dispatch (t : Nat)
  /-- The thread makes up to `n` calls, the first with index `i`. -/
  | run (t n i : Nat) (accepted : Nat → Bool)

/-- The state after a turn, and the labels of its steps. -/
def Turn.play [Runtime] : Turn → WorkerPool → Option (List WorkerLabel × WorkerPool)
  | arrive message, ⟨w, threads⟩ =>
      some ([.env], ⟨{ w with commands := w.commands ++ [message] }, threads⟩)
  | deliver t, ⟨w, threads⟩ =>
      match w.commands, threads t with
      | message :: rest, none =>
          some ([.spawn t (.delivery message)], ⟨{ w with commands := rest },
            Function.update threads t (some ⟨.delivery message, [], handleDelivery message⟩)⟩)
      | _, _ => none
  | dispatch t, ⟨w, threads⟩ =>
      match threads t with
      | none => some ([.spawn t .outboxDispatcher], ⟨w,
          Function.update threads t (some ⟨.outboxDispatcher, [], outboxDispatcherCycle⟩)⟩)
      | some _ => none
  | run t n i accepted, ⟨w, threads⟩ =>
      (threads t).bind fun th => (script accepted n i th.prog w).map fun (events, q, w') =>
        (events.map (.act t),
          ⟨w', Function.update threads t (some ⟨th.info, th.history ++ events, q⟩)⟩)

def playTurns [Runtime] : List Turn → WorkerPool → Option (List WorkerLabel × WorkerPool)
  | [], s => some ([], s)
  | turn :: turns, s =>
      (turn.play s).bind fun (first, s₁) =>
        (playTurns turns s₁).map fun (rest, s₂) => (first ++ rest, s₂)

/-- The state after the request, without threads. -/
def WorkerPool.requesting [Runtime] (definition : Json) : WorkerPool :=
  ⟨.requesting definition, fun _ => none⟩

section

variable [Runtime] {row : WorkflowExecutionRow} {s s' : WorkerPool} {labels : List WorkerLabel}

/-- A turn is a run. -/
theorem Turn.play_run {turn : Turn} (h : turn.play s = some (labels, s')) :
    Pool.Run (workerSystem (openEnvironment row)) (fun _ _ => True) s labels s' := by
  obtain ⟨w, threads⟩ := s
  have hone : ∀ {l : WorkerLabel} {s' : WorkerPool},
      Pool.Step (workerSystem (openEnvironment row)) ⟨w, threads⟩ l s' →
      Pool.Run (workerSystem (openEnvironment row)) (fun _ _ => True) ⟨w, threads⟩ [l] s' :=
    fun hs => .step .refl trivial hs
  cases turn with
  | arrive message =>
      cases h
      exact hone (.env (.arrive trivial))
  | deliver t =>
      simp only [Turn.play] at h
      split at h
      · rename_i message rest hcommands hfree
        cases h
        exact hone (.spawn hfree (@StartJob.delivery w [] rest message hcommands))
      · cases h
  | dispatch t =>
      simp only [Turn.play] at h
      split at h
      · rename_i hfree
        cases h
        exact hone (.spawn hfree .outboxDispatcher)
      · cases h
  | run t n i accepted =>
      obtain ⟨th, hth, h⟩ := Option.bind_eq_some_iff.mp h
      obtain ⟨⟨events, q, w'⟩, hscript, heq⟩ := Option.map_eq_some_iff.mp h
      cases heq
      obtain ⟨hafter, hreplays⟩ := script_sound row hscript
      exact Pool.Run.after hafter hth hreplays fun _ _ _ _ => trivial

theorem playTurns_run : ∀ {turns : List Turn} {s s' : WorkerPool} {labels : List WorkerLabel},
    playTurns turns s = some (labels, s') →
    Pool.Run (workerSystem (openEnvironment row)) (fun _ _ => True) s labels s'
  | [], _, _, _, h => by
      cases h
      exact .refl
  | turn :: turns, _, _, _, h => by
      obtain ⟨⟨first, s₁⟩, hfirst, h⟩ := Option.bind_eq_some_iff.mp h
      obtain ⟨⟨rest, s₂⟩, hrest, heq⟩ := Option.map_eq_some_iff.mp h
      cases heq
      exact (Turn.play_run hfirst).trans (playTurns_run hrest)

/-- What was checked of two groups of turns is true of the runs of both, the
first from the empty system on. -/
theorem exists_runs_of_turns (definition : Json) (before turns : List Turn)
    {P : List WorkerLabel → List WorkerLabel → WorkerPool → WorkerPool → Bool}
    (h : (playTurns before (.requesting definition)).any (fun (first, s) =>
      (playTurns turns s).any fun (labels, s') =>
        P ([.env, .env] ++ first) labels s s') = true) :
    ∃ first s labels s',
      Pool.Run (workerSystem (openEnvironment (newRow definition))) (fun _ _ => True)
        ⟨.empty, fun _ => none⟩ first s
      ∧ Pool.Run (workerSystem (openEnvironment (newRow definition))) (fun _ _ => True) s labels s'
      ∧ P first labels s s' = true := by
  obtain ⟨⟨first, s⟩, hbefore, h⟩ := (Option.any_eq_true _ _).mp h
  obtain ⟨⟨labels, s'⟩, hturns, hP⟩ := (Option.any_eq_true _ _).mp h
  have hrequesting : Pool.Run (workerSystem (openEnvironment (newRow definition)))
      (fun _ _ => True) ⟨.empty, fun _ => none⟩ [.env, .env]
      ⟨.requesting definition, fun _ => none⟩ := run_requesting definition rfl fun _ => trivial
  exact ⟨_, s, labels, s', hrequesting.trans (playTurns_run hbefore), playTurns_run hturns, hP⟩

/-- What was checked of two groups of turns is true of the run of the second
group, which starts in a reachable state; the labels of both meet the side
condition. -/
theorem exists_run_of_turns (definition : Json) (before turns : List Turn)
    (allowed : WorkerLabel → Bool) {C : WorkerPool → WorkerLabel → Prop} (henv : ∀ s, C s .env)
    (hallowed : ∀ s l, allowed l = true → C s l)
    {P : List WorkerLabel → WorkerPool → WorkerPool → Bool}
    (h : (playTurns before (.requesting definition)).any (fun (first, s) =>
      first.all allowed && (playTurns turns s).any fun (labels, s') =>
        labels.all allowed && P labels s s') = true) :
    ∃ s labels s', ReachableUnder (openEnvironment (newRow definition)) C s
      ∧ Pool.Run (workerSystem (openEnvironment (newRow definition))) C s labels s'
      ∧ P labels s s' = true := by
  obtain ⟨⟨first, s⟩, hbefore, h⟩ := (Option.any_eq_true _ _).mp h
  obtain ⟨hfirst, h⟩ := (Bool.and_eq_true _ _).mp h
  obtain ⟨⟨labels, s'⟩, hturns, h⟩ := (Option.any_eq_true _ _).mp h
  obtain ⟨hlabels, hP⟩ := (Bool.and_eq_true _ _).mp h
  have hmeets : ∀ {labels : List WorkerLabel}, labels.all allowed = true →
      ∀ l ∈ labels, ∀ s, C s l :=
    fun hall l hl s => hallowed s l (List.all_eq_true.mp hall l hl)
  exact ⟨s, labels, s', ((playTurns_run hbefore).of_labels (hmeets hfirst)).reachable
    (reachable_requesting definition rfl henv), (playTurns_run hturns).of_labels (hmeets hlabels),
    hP⟩

/-! ## Conditions on the state -/

/-- The thread of a turn, if it has one, is among the first `k`. -/
def Turn.isBelow (k : Nat) : Turn → Bool
  | arrive _ => true
  | deliver t | dispatch t | run t _ _ _ => t < k

/-- A turn of several calls, call by call. -/
def Turn.calls : Turn → List Turn
  | run t n i accepted => (List.range n).map fun j => run t 1 (i + j) accepted
  | turn => [turn]

/-- Play turns of one step each, and check each step in the state in which it
is made. -/
def playChecked (k : Nat) (allowed : WorkerPool → WorkerLabel → Bool) :
    List Turn → WorkerPool → Option (List WorkerLabel × WorkerPool)
  | [], s => some ([], s)
  | turn :: turns, s =>
      (turn.play s).bind fun (first, s₁) =>
        if turn.isBelow k ∧ first.length ≤ 1 ∧ first.all (allowed s) then
          (playChecked k allowed turns s₁).map fun (rest, s₂) => (first ++ rest, s₂)
        else none

/-- A turn leaves the threads of other numbers alone. -/
theorem Turn.play_free {turn : Turn} {k : Nat} (h : turn.play s = some (labels, s'))
    (hbelow : turn.isBelow k = true) (hfree : ∀ t, k ≤ t → s.threads t = none) :
    ∀ t, k ≤ t → s'.threads t = none := by
  obtain ⟨w, threads⟩ := s
  have hkept : ∀ {t' : Nat} {th : WorkerThread}, t' < k → ∀ t, k ≤ t →
      Function.update threads t' (some th) t = none := by
    intro t' th ht' t ht
    rw [Function.update_of_ne (by omega)]
    exact hfree t ht
  cases turn with
  | arrive message =>
      cases h
      exact hfree
  | deliver t =>
      simp only [Turn.play] at h
      split at h
      · cases h
        exact hkept (of_decide_eq_true hbelow)
      · cases h
  | dispatch t =>
      simp only [Turn.play] at h
      split at h
      · cases h
        exact hkept (of_decide_eq_true hbelow)
      · cases h
  | run t n i accepted =>
      obtain ⟨th, hth, h⟩ := Option.bind_eq_some_iff.mp h
      obtain ⟨⟨events, q, w'⟩, hscript, heq⟩ := Option.map_eq_some_iff.mp h
      cases heq
      exact hkept (of_decide_eq_true hbelow)

theorem playChecked_run {k : Nat} {allowed : WorkerPool → WorkerLabel → Bool}
    {C : WorkerPool → WorkerLabel → Prop}
    (hallowed : ∀ s l, (∀ t, k ≤ t → s.threads t = none) → allowed s l = true → C s l) :
    ∀ {turns : List Turn} {s s' : WorkerPool} {labels : List WorkerLabel},
    (∀ t, k ≤ t → s.threads t = none) → playChecked k allowed turns s = some (labels, s') →
    Pool.Run (workerSystem (openEnvironment row)) C s labels s'
  | [], _, _, _, _, h => by
      cases h
      exact .refl
  | turn :: turns, s, _, _, hfree, h => by
      obtain ⟨⟨first, s₁⟩, hfirst, h⟩ := Option.bind_eq_some_iff.mp h
      obtain ⟨⟨hbelow, hshort, hall⟩, h⟩ := Option.ite_none_right_eq_some.mp h
      obtain ⟨⟨rest, s₂⟩, hrest, heq⟩ := Option.map_eq_some_iff.mp h
      cases heq
      have hrun : Pool.Run (workerSystem (openEnvironment row)) C s first s₁ :=
        (Turn.play_run hfirst).of_short hshort fun l hl =>
          hallowed s l hfree (List.all_eq_true.mp hall l hl)
      exact hrun.trans (playChecked_run hallowed (Turn.play_free hfirst hbelow hfree) hrest)

/-- What was checked at the end of the turns is true of a state that is
reached under the condition. -/
theorem exists_reachable_of_checked (definition : Json) (k : Nat) (turns : List Turn)
    (allowed : WorkerPool → WorkerLabel → Bool) {C : WorkerPool → WorkerLabel → Prop}
    (henv : ∀ s, C s .env)
    (hallowed : ∀ s l, (∀ t, k ≤ t → s.threads t = none) → allowed s l = true → C s l)
    {P : WorkerPool → Bool}
    (h : (playChecked k allowed (turns.flatMap Turn.calls) (.requesting definition)).any
      (fun (_, s) => P s) = true) :
    ∃ s, ReachableUnder (openEnvironment (newRow definition)) C s ∧ P s = true := by
  obtain ⟨⟨labels, s⟩, hplay, hP⟩ := (Option.any_eq_true _ _).mp h
  exact ⟨s, (playChecked_run hallowed (fun _ _ => rfl) hplay).reachable
    (reachable_requesting definition rfl henv), hP⟩

end

end FlowPilot
