import FlowPilot.Lib.StepOrder
import FlowPilot.System.OutboxRows

/-!
# The attempts of an outbox row

A recorded success counts on the row as it is, a recorded failure writes the
attempts and the status of the snapshot its dispatcher works on. So what
matters is the order of the steps: whether a dispatch of the row has been
recorded since the dispatcher read it last. `FailureCurrent` says that none
has. As long as every failure is recorded so, attempts count the recorded
dispatches and a published row stays published (`outbox_rows_monotone`); a
failure recorded from an outdated snapshot loses a dispatch
(`outbox_rows_not_monotone`).

The invariant (`DispatchesCounted`) is about snapshots: a current one is the
row as it stands, and an outdated one has fewer attempts than dispatches were
recorded.
-/

namespace FlowPilot

open StepOrder
open Prog hiding pure throw bind tryCatch

/-! ## Reads and dispatches -/

/-- The rows a call was answered with. -/
def answeredRows : WorkerEvent → List OutboxMessage
  | ⟨.db (.upsertOutbox _ _), .ok answer⟩ => [answer]
  | ⟨.db (.transaction _), .ok r⟩ => (TransitionResult.outboxMessage r).toList
  | ⟨.db (.findOutbox _ _), .ok rows⟩ => rows
  | _ => []

theorem mem_answeredRows {ev : WorkerEvent} {row : OutboxMessage} :
    row ∈ answeredRows ev ↔ AnswersRow ev row := by
  obtain ⟨op, reply⟩ := ev
  cases op with
  | db c =>
      cases reply with
      | ok r =>
          cases c with
          | upsertOutbox routingKey message => exact List.mem_singleton.trans eq_comm
          | transaction t => exact Option.mem_toList
          | findOutbox filter take => exact Iff.rfl
          | _ => exact List.mem_nil_iff _
      | _ => cases c <;> exact List.mem_nil_iff _
  | _ => exact List.mem_nil_iff _

/-- The step answers the thread with the row of this id. -/
def ReadsRow (t : Nat) (id : String) : WorkerLabel → Bool
  | .act t' ev => t' = t && (answeredRows ev).any (·.id = id)
  | _ => false

theorem readsRow_act {t t' : Nat} {id : String} {ev : WorkerEvent} :
    ReadsRow t id (.act t' ev) = true ↔ t' = t ∧ ∃ row, AnswersRow ev row ∧ row.id = id := by
  simp [ReadsRow, mem_answeredRows]

/-- Since the thread last read the row, no dispatch of it was recorded. -/
def SnapshotCurrent (t : Nat) (id : String) (earlier : List WorkerLabel) : Prop :=
  Fresh (ReadsRow t id · = true) (RecordsDispatchOf id · = true) earlier

instance (t : Nat) (id : String) (earlier : List WorkerLabel) :
    Decidable (SnapshotCurrent t id earlier) :=
  inferInstanceAs (Decidable (Fresh _ _ _))

/-- The thread and the row of the failure that a step records. -/
def recordsFailure? : WorkerLabel → Option (Nat × String)
  | .act t ⟨.db (.updateOutbox id (.publishFailure _ _ _)), reply⟩ =>
      if reply.applied then some (t, id) else none
  | _ => none

/-- If the step records a failure, the snapshot it is recorded from is
current. -/
def FailureCurrent (earlier : List WorkerLabel) (l : WorkerLabel) : Prop :=
  ∀ failure ∈ recordsFailure? l, SnapshotCurrent failure.1 failure.2 earlier

instance (earlier : List WorkerLabel) (l : WorkerLabel) : Decidable (FailureCurrent earlier l) :=
  inferInstanceAs (Decidable (∀ failure ∈ recordsFailure? l, _))

/-! ## The invariant -/

section

variable [Runtime] {env : Environment} {C : WorkerPool → WorkerLabel → Prop} {s s' : WorkerPool}
  {l : WorkerLabel} {labels : List WorkerLabel}

/-- A snapshot that is current is the row as it stands; an outdated one has
fewer attempts than dispatches were recorded. -/
structure SnapshotAge (labels : List WorkerLabel) (outbox : List OutboxMessage) (t : Nat)
    (snapshot : OutboxMessage) : Prop where
  current : SnapshotCurrent t snapshot.id labels → snapshot ∈ outbox
  outdated : ¬ SnapshotCurrent t snapshot.id labels →
    snapshot.attempts < labels.countP (RecordsDispatchOf snapshot.id)

/-- Attempts count the recorded dispatches, of which there are none where
there is no row. -/
structure DispatchesCounted (labels : List WorkerLabel) (s : WorkerPool) : Prop where
  rows : ∀ row ∈ s.world.store.outbox,
    row.attempts = labels.countP (RecordsDispatchOf row.id)
  none : ∀ id, (∀ row ∈ s.world.store.outbox, row.id ≠ id) →
    labels.countP (RecordsDispatchOf id) = 0
  snapshots : ∀ t th, s.threads t = some th → ∀ snapshot, LatestRow th.history snapshot →
    SnapshotAge labels s.world.store.outbox t snapshot

/-- What a failure is recorded from: the row as it stands if the snapshot is
current, and otherwise fewer attempts than the row has. -/
theorem DispatchesCounted.failure (hcounted : DispatchesCounted labels s)
    (h : ReachableUnder env C s) {t : Nat} {row : OutboxMessage} {attempts : Nat}
    {lastError : String} {status : OutboxStatus} {reply : Reply JsError Unit}
    (hs : Pool.Step (workerSystem env)
      s (.act t ⟨.db (.updateOutbox row.id (.publishFailure attempts lastError status)), reply⟩) s')
    (hrow : row ∈ s.world.store.outbox) :
    (SnapshotCurrent t row.id labels → attempts = row.attempts + 1 ∧ row.status ≠ .published)
    ∧ (¬ SnapshotCurrent t row.id labels → attempts < row.attempts + 1) := by
  obtain ⟨th, snapshot, hth, hlatest, hsame, hstatus, hrecords⟩ := h.snapshot_of_update hs hrow rfl
  have hage := hcounted.snapshots t th hth snapshot hlatest
  obtain ⟨hcurrent, houtdated⟩ := hage
  cases hrecords
  rw [← hsame.id_eq] at hcurrent houtdated
  constructor
  · intro hfresh
    obtain rfl := h.uniqueRows.eq_of_id (hcurrent hfresh) hrow hsame.id_eq.symm
    exact ⟨rfl, hstatus⟩
  · intro hnot
    have hcount := hcounted.rows row hrow
    have hless := houtdated hnot
    omega

/-- A row after a step that meets the condition. -/
theorem DispatchesCounted.row_step (hcounted : DispatchesCounted labels s)
    (h : ReachableUnder env C s) (hc : FailureCurrent labels l)
    (hs : Pool.Step (workerSystem env) s l s') {row : OutboxMessage}
    (hrow : row ∈ s.world.store.outbox) :
    ∃ later ∈ s'.world.store.outbox, later.id = row.id
      ∧ (row.status = .published → later.status = .published)
      ∧ later.attempts = row.attempts + if RecordsDispatchOf row.id l then 1 else 0 := by
  rcases outboxRow_of_step hs hrow with ⟨hkept, hnone⟩ | ⟨t, data, reply, rfl, happlied, hmem⟩
  · exact ⟨row, hkept, rfl, fun hstatus => hstatus, by simp [hnone]⟩
  · have hrecords : RecordsDispatchOf row.id (.act t ⟨.db (.updateOutbox row.id data), reply⟩)
        = true := by simp [RecordsDispatchOf, happlied]
    refine ⟨_, hmem, data.apply_id row, ?_⟩
    rw [if_pos hrecords]
    cases data with
    | published publishedAt => exact ⟨fun _ => rfl, rfl⟩
    | publishFailure attempts lastError status =>
        obtain ⟨hattempts, hstatus⟩ := (hcounted.failure h hs hrow).1 (hc _ (if_pos happlied))
        exact ⟨fun hpublished => absurd hpublished hstatus, hattempts⟩

/-- A dispatch is recorded for a row that is there. -/
theorem ReachableUnder.exists_row (h : ReachableUnder env C s)
    (hs : Pool.Step (workerSystem env) s l s') {id : String}
    (hrecords : RecordsDispatchOf id l = true) : ∃ row ∈ s.world.store.outbox, row.id = id := by
  unfold RecordsDispatchOf at hrecords
  split at hrecords
  · rename_i t id' data reply
    obtain ⟨rfl, -⟩ := by simpa using hrecords
    obtain ⟨info, history, k, hth, -, -⟩ := hs.act_cases
    obtain ⟨snapshot, hlatest, hid, -⟩ := (ReachableUnder.outboxOp h).next hth
    obtain ⟨row, hrow, hsame⟩ := ReachableUnder.snapshots h t _ hth snapshot hlatest.seen
    exact ⟨row, hrow, hsame.id_eq.trans hid⟩
  · cases hrecords

omit [Runtime] in
theorem countP_concat {id : String} : (labels ++ [l]).countP (RecordsDispatchOf id)
    = labels.countP (RecordsDispatchOf id) + if RecordsDispatchOf id l then 1 else 0 := by
  rw [List.countP_append, List.countP_singleton]

/-- No dispatch has been recorded, now either, where there was no row. -/
theorem DispatchesCounted.none_step (hcounted : DispatchesCounted labels s)
    (h : ReachableUnder env C s) (hs : Pool.Step (workerSystem env) s l s') {id : String}
    (hid : ∀ row ∈ s.world.store.outbox, row.id ≠ id) :
    (labels ++ [l]).countP (RecordsDispatchOf id) = 0 := by
  have hrecords : ¬ RecordsDispatchOf id l = true := by
    intro hrecords
    obtain ⟨row, hrow, heq⟩ := ReachableUnder.exists_row h hs hrecords
    exact hid row hrow heq
  rw [countP_concat, hcounted.none id hid, if_neg hrecords]

theorem DispatchesCounted.rows_step (hcounted : DispatchesCounted labels s)
    (h : ReachableUnder env C s) (hc : FailureCurrent labels l)
    (hs : Pool.Step (workerSystem env) s l s') (hunique : UniqueRows s'.world.store.outbox)
    {row' : OutboxMessage} (hrow' : row' ∈ s'.world.store.outbox) :
    row'.attempts = (labels ++ [l]).countP (RecordsDispatchOf row'.id) := by
  by_cases hold : ∃ row ∈ s.world.store.outbox, row'.id = row.id
  · obtain ⟨row, hrow, hid⟩ := hold
    obtain ⟨later, hlater, hidLater, -, hattempts⟩ := hcounted.row_step h hc hs hrow
    obtain rfl := hunique.eq_of_id hrow' hlater (hid.trans hidLater.symm)
    rw [hattempts, hid, countP_concat, hcounted.rows row hrow]
  · rw [hcounted.none_step h hs fun row hrow heq => hold ⟨row, hrow, heq.symm⟩]
    rcases outboxEffect_of_step hs with ⟨heq, -⟩ | ⟨t, op, reply, rfl, heffect⟩
    · exact absurd ⟨row', heq ▸ hrow', rfl⟩ hold
    · rcases heffect.origin hrow' with hrow | ⟨_, _, _, -, rfl⟩ | ⟨row, hrow, data, -, -, rfl⟩
      · exact absurd ⟨row', hrow, rfl⟩ hold
      · rfl
      · exact absurd ⟨row, hrow, data.apply_id row⟩ hold

/-- A snapshot that was not read again ages with the dispatches that are
recorded. -/
theorem DispatchesCounted.ages (hcounted : DispatchesCounted labels s)
    (hs : Pool.Step (workerSystem env) s l s') {t : Nat} {snapshot : OutboxMessage}
    (hage : SnapshotAge labels s.world.store.outbox t snapshot)
    (hread : ¬ ReadsRow t snapshot.id l = true) :
    SnapshotAge (labels ++ [l]) s'.world.store.outbox t snapshot := by
  have hfresh : SnapshotCurrent t snapshot.id (labels ++ [l]) ↔
      SnapshotCurrent t snapshot.id labels ∧ ¬ RecordsDispatchOf snapshot.id l = true := by
    rw [SnapshotCurrent, fresh_concat, or_iff_right hread]
    rfl
  constructor
  · intro hcurrent
    obtain ⟨hcurrent, hnone⟩ := hfresh.mp hcurrent
    rcases outboxRow_of_step hs (hage.current hcurrent) with
      ⟨hkept, -⟩ | ⟨_, data, reply, rfl, happlied, -⟩
    · exact hkept
    · exact absurd (by simp [RecordsDispatchOf, happlied]) hnone
  · intro hnot
    rw [countP_concat]
    by_cases hcurrent : SnapshotCurrent t snapshot.id labels
    · have hrecords : RecordsDispatchOf snapshot.id l = true := by
        by_contra hnone
        exact hnot (hfresh.mpr ⟨hcurrent, hnone⟩)
      rw [if_pos hrecords, ← hcounted.rows snapshot (hage.current hcurrent)]
      exact Nat.lt_succ_self _
    · exact Nat.lt_add_right _ (hage.outdated hcurrent)

theorem DispatchesCounted.snapshots_step (hcounted : DispatchesCounted labels s)
    (hs : Pool.Step (workerSystem env) s l s') {t : Nat} {th : WorkerThread}
    (hth : s'.threads t = some th) {snapshot : OutboxMessage}
    (hlatest : LatestRow th.history snapshot) :
    SnapshotAge (labels ++ [l]) s'.world.store.outbox t snapshot := by
  rcases hs.thread_cases hth with
    hold | ⟨info, -, -, rfl⟩ | ⟨info, history, op, k, reply, rfl, hold, hexec, rfl⟩
  · refine hcounted.ages hs (hcounted.snapshots t th hold snapshot hlatest) fun hread => ?_
    cases l with
    | act t' ev =>
        obtain ⟨rfl, -⟩ := readsRow_act.mp hread
        exact hs.threads_ne (hth.trans hold.symm)
    | _ => cases hread
  · obtain ⟨before, ev, after, heq, -⟩ := hlatest
    simp at heq
  · rcases latestRow_concat hlatest with hanswers | ⟨hlatest, hother⟩
    · have hread : SnapshotCurrent t snapshot.id (labels ++ [.act t ⟨op, reply⟩]) :=
        fresh_concat.mpr (Or.inl (readsRow_act.mpr ⟨rfl, snapshot, hanswers, rfl⟩))
      exact ⟨fun _ => (exec_outboxEffect hexec).2 snapshot hanswers, fun hnot => absurd hread hnot⟩
    · refine hcounted.ages hs (hcounted.snapshots t _ hold snapshot hlatest) fun hread => ?_
      obtain ⟨-, row, hanswers, hid⟩ := readsRow_act.mp hread
      exact hother row hanswers hid

theorem DispatchesCounted.step (hcounted : DispatchesCounted labels s)
    (h : ReachableUnder env C s) (hC : C s l) (hc : FailureCurrent labels l)
    (hs : Pool.Step (workerSystem env) s l s') : DispatchesCounted (labels ++ [l]) s' where
  rows _ hrow' := hcounted.rows_step h hc hs (ReachableUnder.uniqueRows (.step h hC hs)) hrow'
  none id hid := by
    refine hcounted.none_step h hs fun row hrow heq => ?_
    rcases outboxRow_of_step hs hrow with ⟨hkept, -⟩ | ⟨t, data, reply, -, -, hmem⟩
    · exact hid row hkept heq
    · exact hid _ hmem ((data.apply_id row).trans heq)
  snapshots _ _ hth _ hlatest := hcounted.snapshots_step hs hth hlatest

/-- Along a run in which failures are recorded from current snapshots. -/
theorem dispatchesCounted_of_run
    (hrun : Pool.Run (workerSystem env) C ⟨.empty, fun _ => none⟩ labels s)
    (hcurrent : Throughout FailureCurrent labels) : DispatchesCounted labels s := by
  induction hrun with
  | refl =>
      exact ⟨fun _ hrow => absurd hrow List.not_mem_nil, fun _ _ => rfl, fun _ _ => nofun⟩
  | step hrun hC hs ih =>
      obtain ⟨hcurrent, hc⟩ := throughout_concat.mp hcurrent
      exact (ih hcurrent).step (hrun.reachable (.start rfl)) hC hc hs

/-! ## Monotone rows -/

/-- A row that was there, after a run. -/
theorem row_of_run {first : List WorkerLabel}
    (hfirst : Pool.Run (workerSystem env) (fun _ _ => True) ⟨.empty, fun _ => none⟩ first s)
    (hrun : Pool.Run (workerSystem env) (fun _ _ => True) s labels s')
    (hcurrent : Throughout FailureCurrent (first ++ labels)) {row : OutboxMessage}
    (hrow : row ∈ s.world.store.outbox) :
    ∃ later ∈ s'.world.store.outbox, later.id = row.id
      ∧ (row.status = .published → later.status = .published)
      ∧ later.attempts = row.attempts + labels.countP (RecordsDispatchOf row.id) := by
  induction hrun with
  | refl => exact ⟨row, hrow, rfl, fun hstatus => hstatus, rfl⟩
  | @step s₁ s₂ labels l hrun _ hs ih =>
      rw [← List.append_assoc] at hcurrent
      obtain ⟨hcurrent, hc⟩ := throughout_concat.mp hcurrent
      obtain ⟨later, hlater, hid, hpublished, hattempts⟩ := ih hcurrent
      have hreaches := hfirst.trans hrun
      obtain ⟨last, hlast, hidLast, hpublishedLast, hattemptsLast⟩ :=
        (dispatchesCounted_of_run hreaches hcurrent).row_step (hreaches.reachable (.start rfl)) hc
          hs hlater
      refine ⟨last, hlast, hidLast.trans hid, fun hstatus => hpublishedLast (hpublished hstatus),
        ?_⟩
      rw [hattemptsLast, hattempts, hid, countP_concat, Nat.add_assoc]

/-- Rows of the outbox evolve monotonically in every run in which failures are
recorded from current snapshots only: a published row stays published, and
attempts grow by one with every recorded dispatch. The condition is exact:
after such a run, a step keeps published rows and counts every dispatch it
records if and only if it meets it. -/
theorem outbox_rows_monotone (env : Environment) (first labels : List WorkerLabel)
    (s s' : WorkerPool)
    (hfirst : Pool.Run (workerSystem env) (fun _ _ => True) ⟨.empty, fun _ => none⟩ first s)
    (hrun : Pool.Run (workerSystem env) (fun _ _ => True) s labels s')
    (hcurrent : Throughout FailureCurrent (first ++ labels)) :
    (∀ row ∈ s.world.store.outbox, ∃ later ∈ s'.world.store.outbox, later.id = row.id
      ∧ (row.status = .published → later.status = .published)
      ∧ later.attempts = row.attempts + labels.countP (RecordsDispatchOf row.id))
    ∧ ∀ l next, Pool.Step (workerSystem env) s' l next →
      (FailureCurrent (first ++ labels) l ↔
        ∀ row ∈ s'.world.store.outbox, ∃ later ∈ next.world.store.outbox, later.id = row.id
          ∧ (row.status = .published → later.status = .published)
          ∧ later.attempts = row.attempts + if RecordsDispatchOf row.id l then 1 else 0) := by
  refine ⟨fun row hrow => row_of_run hfirst hrun hcurrent hrow, fun l next hs => ?_⟩
  have hreaches := hfirst.trans hrun
  have hcounted := dispatchesCounted_of_run hreaches hcurrent
  have hreach : ReachableSystem env s' := hreaches.reachable (.start rfl)
  refine ⟨fun hc row hrow => hcounted.row_step hreach hc hs hrow, fun hcounts => ?_⟩
  intro failure hfailure
  unfold recordsFailure? at hfailure
  split at hfailure
  · rename_i t id attempts lastError status reply
    obtain ⟨happlied, hfailure⟩ := Option.ite_none_right_eq_some.mp hfailure
    obtain rfl := Option.some.inj hfailure
    have hrecords : RecordsDispatchOf id (.act t
        ⟨.db (.updateOutbox id (.publishFailure attempts lastError status)), reply⟩) = true := by
      simp [RecordsDispatchOf, happlied]
    obtain ⟨row, hrow, rfl⟩ := ReachableUnder.exists_row hreach hs hrecords
    obtain ⟨later, hlater, hid, -, hattempts⟩ := hcounts row hrow
    rw [if_pos hrecords] at hattempts
    -- the row is the one the failure was written to, which an outdated snapshot would not count
    rcases outboxRow_of_step hs hrow with ⟨-, hnone⟩ | ⟨_, data, _, heq, -, hmem⟩
    · rw [hrecords] at hnone
      cases hnone
    · cases heq
      have hunique : UniqueRows next.world.store.outbox :=
        ReachableUnder.uniqueRows (.step hreach trivial hs)
      obtain rfl := hunique.eq_of_id hlater hmem hid
      by_contra hnot
      exact absurd hattempts ((hcounted.failure hreach hs hrow).2 hnot).ne
  · cases hfailure

end

/-- The started event finds no room for cycle 1, which records a failure;
cycle 2 publishes it, and then the worker that stored it does so again. -/
theorem outbox_rows_monotone_failure :
    let _ : Runtime := .sample false
    let env := openEnvironment (newRow defaultWorkflowDefinition)
    ∃ first s labels s' row,
      Pool.Run (workerSystem env) (fun _ _ => True) ⟨.empty, fun _ => none⟩ first s
      ∧ Pool.Run (workerSystem env) (fun _ _ => True) s labels s'
      ∧ row ∈ s.world.store.outbox ∧ row.status = .published ∧ row.attempts = 2
      ∧ labels.countP (RecordsDispatchOf row.id) = 1
      ∧ ∃ later ∈ s'.world.store.outbox, later.id = row.id ∧ later.status = .published
        ∧ later.attempts = row.attempts + 1 := by
  intro _ env
  obtain ⟨first, s, labels, s', hfirst, hrun, hP⟩ :=
    exists_runs_of_turns defaultWorkflowDefinition
      [.deliver 0, .run 0 4 0 fun _ => true, .dispatch 1, .run 1 4 10 fun _ => false,
        .dispatch 2, .run 2 5 20 fun _ => true] [.run 0 4 30 fun _ => true]
      (P := fun first labels s _ => decide (Throughout FailureCurrent (first ++ labels))
        && s.world.store.outbox.any fun row => row.status = .published ∧ row.attempts = 2
          ∧ labels.countP (RecordsDispatchOf row.id) = 1) (by decide +kernel)
  obtain ⟨hcurrent, hP⟩ := (Bool.and_eq_true _ _).mp hP
  obtain ⟨row, hrow, hcheck⟩ := List.any_eq_true.mp hP
  obtain ⟨hstatus, htwo, hcount⟩ := of_decide_eq_true hcheck
  obtain ⟨later, hlater, hid, hpublished, hattempts⟩ :=
    (outbox_rows_monotone env first labels s s' hfirst hrun (of_decide_eq_true hcurrent)).1 row hrow
  exact ⟨first, s, labels, s', row, hfirst, hrun, hrow, hstatus, htwo, hcount, later, hlater, hid,
    hpublished hstatus, by rw [hattempts, hcount]⟩

/-- When cycle 2 finds no room instead, it makes the published row pending,
and of the two recorded dispatches one is lost. -/
theorem outbox_rows_not_monotone :
    ∃ (_ : Runtime) (env : Environment) (s s' : WorkerPool) (labels : List WorkerLabel)
      (row later : OutboxMessage), ReachableSystem env s
      ∧ Pool.Run (workerSystem env) (fun _ _ => True) s labels s'
      ∧ row ∈ s.world.store.outbox ∧ later ∈ s'.world.store.outbox ∧ later.id = row.id
      ∧ row.status = .published ∧ later.status = .pending
      ∧ later.attempts < row.attempts + labels.countP (RecordsDispatchOf row.id) := by
  let _ : Runtime := .sample false
  obtain ⟨s, labels, s', hs, hrun, hP⟩ := exists_run_of_turns defaultWorkflowDefinition
    twoDispatchers [.run 2 3 40 fun _ => false] (fun _ => true) (C := fun _ _ => True)
    (fun _ => trivial) (fun _ _ _ => trivial)
    (P := fun labels s s' => s.world.store.outbox.any fun row =>
      s'.world.store.outbox.any fun later => later.id = row.id ∧ row.status = .published
        ∧ later.status = .pending
        ∧ later.attempts < row.attempts + labels.countP (RecordsDispatchOf row.id))
    (by decide +kernel)
  obtain ⟨row, hrow, hcheck⟩ := List.any_eq_true.mp hP
  obtain ⟨later, hlater, hcheck⟩ := List.any_eq_true.mp hcheck
  exact ⟨_, _, s, s', labels, row, later, hs, hrun, hrow, hlater, of_decide_eq_true hcheck⟩

end FlowPilot
