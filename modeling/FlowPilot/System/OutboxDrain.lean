import FlowPilot.Lib.Drain
import FlowPilot.Lib.Run
import FlowPilot.System.OutboxRows
import Mathlib.Algebra.Order.Group.Nat

/-!
# Draining the outbox

One dispatcher alone: its cycles, one after the other, over a store that
nobody else writes and a broker that takes, refuses or throws as it likes. A
row that keeps failing is fetched first each time, but its attempts are
limited; so no row is pending after a number of cycles that depends only on
how many there are and on the size of a batch (`outbox_drained`). The
counting is that of `Lib.Drain`, with the attempts a pending row has left.
-/

namespace FlowPilot

open Prog hiding pure throw bind tryCatch

/-! ## One dispatcher -/

/-- The replies to a dispatcher that is alone. The database does what it is
asked, and fails only where it must reject the call; a publish may end in any
way. -/
def dispatcherExec (op : WorkerOp) (s : Store) (reply : Reply JsError op.Result) (s' : Store) :
    Prop :=
  match op with
  | .db c => (∃ ctx r, c.run ctx s = some (r, s') ∧ reply = .ok r)
      ∨ s' = s ∧ (∃ ctx, c.run ctx s = none) ∧ ∃ e, reply = .failed e
  | .publish _ => s' = s
  | _ => s' = s ∧ ∃ r, reply = .ok r

/-- Every call is answered. -/
theorem dispatcherExec_total (op : WorkerOp) (s : Store) :
    ∃ reply s', dispatcherExec op s reply s' := by
  cases op with
  | db c =>
      cases hrun : c.run ⟨0, "", fun _ => 0⟩ s with
      | some result => exact ⟨.ok result.1, result.2, Or.inl ⟨_, _, hrun, rfl⟩⟩
      | none => exact ⟨.failed (.error ""), s, Or.inr ⟨rfl, ⟨_, hrun⟩, _, rfl⟩⟩
  | publish p => exact ⟨.ok true, s, rfl⟩
  | newDate => exact ⟨.ok (0 : Int), s, rfl, _, rfl⟩
  | randomUUID => exact ⟨.ok "", s, rfl, _, rfl⟩
  | executeWorkflowNode node context => exact ⟨.ok [], s, rfl, _, rfl⟩
  | ack message => exact ⟨.ok (), s, rfl, _, rfl⟩
  | nack message allUpTo requeue => exact ⟨.ok (), s, rfl, _, rfl⟩

/-- Calls of `dispatchPendingOutboxMessages`, one after the other, each with
what it came to. -/
inductive DispatchCalls (batchSize : Nat) :
    List (Except JsError DispatchResult) → Store → Store → Prop
  | nil (s : Store) : DispatchCalls batchSize [] s s
  | cons {out : Except JsError DispatchResult} {outs : List (Except JsError DispatchResult)}
      {s s₁ s' : Store} :
      Runs dispatcherExec (dispatchPendingOutboxMessages batchSize) s out s₁ →
      DispatchCalls batchSize outs s₁ s' → DispatchCalls batchSize (out :: outs) s s'

theorem exists_dispatchCalls (batchSize : Nat) :
    ∀ (n : Nat) (s : Store), ∃ outs s', DispatchCalls batchSize outs s s' ∧ outs.length = n
  | 0, s => ⟨[], s, .nil s, rfl⟩
  | n + 1, s => by
      obtain ⟨out, s₁, hrun⟩ := exists_runs dispatcherExec_total
        (dispatchPendingOutboxMessages batchSize) s
      obtain ⟨outs, s', hcalls, rfl⟩ := exists_dispatchCalls batchSize n s₁
      exact ⟨out :: outs, s', .cons hrun hcalls, rfl⟩

/-! ## Attempts -/

/-- The publish attempts a row has left. -/
def OutboxMessage.attemptsLeft (row : OutboxMessage) : Nat :=
  if row.status = .pending then outboxMaxPublishAttempts - row.attempts else 0

/-- The rows have ids of their own, and pending rows have attempts left. -/
structure Dispatchable (outbox : List OutboxMessage) : Prop where
  ids : (outbox.map (·.id)).Nodup
  left : ∀ row ∈ outbox, row.status = .pending → row.attempts < outboxMaxPublishAttempts

/-- What an attempt writes to its row. -/
inductive Attempted (row : OutboxMessage) : OutboxUpdate → Prop
  | published (publishedAt : Int) : Attempted row (.published publishedAt)
  | failed (lastError : String) :
      Attempted row (.publishFailure (row.attempts + 1) lastError
        (if outboxMaxPublishAttempts ≤ row.attempts + 1 then .failed else row.status))

/-- An attempt costs one, or all. -/
theorem Attempted.attemptsLeft {row : OutboxMessage} {u : OutboxUpdate} (h : Attempted row u)
    (hpending : row.status = .pending) (hleft : row.attempts < outboxMaxPublishAttempts) :
    (u.apply row).attemptsLeft + 1 ≤ row.attemptsLeft
      ∧ ((u.apply row).status = .pending → (u.apply row).attempts < outboxMaxPublishAttempts) := by
  cases h with
  | published publishedAt =>
      simp only [OutboxMessage.attemptsLeft, OutboxUpdate.apply, hpending, if_true, reduceCtorEq,
        if_false, false_implies, and_true]
      omega
  | failed lastError =>
      simp only [OutboxMessage.attemptsLeft, OutboxUpdate.apply, hpending, if_true]
      split
      · simp only [reduceCtorEq, if_false, false_implies, and_true]
        omega
      · simp only [if_true, true_implies]
        omega

/-! ## One row -/

section

variable {s s' : Store} {row : OutboxMessage}

theorem runs_newDate {out : Except JsError Int} (h : Runs dispatcherExec newDate s out s') :
    s' = s ∧ ∃ now, out = .ok now := by
  obtain ⟨reply, ⟨rfl, now, rfl⟩, rfl⟩ := runs_perform h
  exact ⟨rfl, now, rfl⟩

/-- An update of a row that is there succeeds. -/
theorem runs_updateOutbox {id : String} {u : OutboxUpdate} {out : Except JsError Unit}
    (hrow : row ∈ s.outbox) (hid : row.id = id)
    (h : Runs dispatcherExec (db (.updateOutbox id u)) s out s') :
    out = .ok () ∧ s'.outbox = s.outbox.map fun r => if r.id = id then u.apply r else r := by
  have hany : s.outbox.any (fun r => decide (r.id = id)) = true :=
    List.any_eq_true.mpr ⟨row, hrow, by simpa using hid⟩
  obtain ⟨reply, hexec, rfl⟩ := runs_perform h
  rcases hexec with ⟨ctx, r, hrun, rfl⟩ | ⟨-, ⟨ctx, hrun⟩, -⟩
  · simp only [DbCall.run, hany, if_true] at hrun
    cases hrun
    exact ⟨rfl, rfl⟩
  · simp only [DbCall.run, hany, if_true] at hrun
    cases hrun

/-- Recording a failure and throwing it again. -/
theorem runs_markOutboxPublishFailure {α : Type} {error : JsError} {out : Except JsError α}
    (hrow : row ∈ s.outbox)
    (h : Runs dispatcherExec (do markOutboxPublishFailure row error; throw error) s out s') :
    out = .error error ∧ ∃ u, Attempted row u
      ∧ s'.outbox = s.outbox.map fun r => if r.id = row.id then u.apply r else r := by
  rcases runs_bind h with ⟨e, hmark, -⟩ | ⟨_, s₁, hmark, hthrow⟩
  · cases (runs_updateOutbox hrow rfl hmark).1
  · obtain ⟨rfl, rfl⟩ := runs_throw hthrow
    exact ⟨rfl, _, .failed error.message, (runs_updateOutbox hrow rfl hmark).2⟩

/-- Dispatching a pending row attempts it once. -/
theorem runs_dispatchOutboxEvent {out : Except JsError Unit} (hrow : row ∈ s.outbox)
    (hpending : row.status = .pending)
    (h : Runs dispatcherExec (dispatchOutboxEvent row) s out s') :
    ∃ u, Attempted row u
      ∧ s'.outbox = s.outbox.map fun r => if r.id = row.id then u.apply r else r := by
  have hnot : row.status ≠ .published := by simp [hpending]
  rw [dispatchOutboxEvent, if_neg hnot] at h
  rcases runs_bind h with ⟨e, hdate, -⟩ | ⟨now, s₁, hdate, hrest⟩
  · obtain ⟨-, now, hok⟩ := runs_newDate hdate
    cases hok
  obtain ⟨rfl, -⟩ := runs_newDate hdate
  rcases runs_bind hrest with ⟨e, hpublish, -⟩ | ⟨accepted, s₂, hpublish, hlast⟩
  · rcases runs_tryCatch hpublish with ⟨_, -, hok⟩ | ⟨error, s₂, hthrew, hmark⟩
    · cases hok
    · obtain ⟨reply, rfl, -⟩ := runs_perform hthrew
      exact (runs_markOutboxPublishFailure hrow hmark).2
  · rcases runs_tryCatch hpublish with ⟨_, hanswer, -⟩ | ⟨error, s₃, hthrew, hmark⟩
    · obtain ⟨reply, rfl, -⟩ := runs_perform hanswer
      split at hlast
      · rcases runs_bind hlast with ⟨e, hdate, -⟩ | ⟨publishedAt, s₃, hdate, hupdate⟩
        · obtain ⟨-, now, hok⟩ := runs_newDate hdate
          cases hok
        · obtain ⟨rfl, -⟩ := runs_newDate hdate
          exact ⟨_, .published publishedAt, (runs_updateOutbox hrow rfl hupdate).2⟩
      · exact (runs_markOutboxPublishFailure hrow hlast).2
    · obtain ⟨reply, rfl, -⟩ := runs_perform hthrew
      cases (runs_markOutboxPublishFailure hrow hmark).1

end

/-! ## A batch -/

/-- What working off `rows` makes of the rows of an outbox. -/
structure Works (rows outbox : List OutboxMessage) (f : OutboxMessage → OutboxMessage) : Prop where
  id : ∀ r, (f r).id = r.id
  left : ∀ r ∈ outbox, (f r).status = .pending → (f r).attempts < outboxMaxPublishAttempts
  le : ∀ r ∈ outbox, (f r).attemptsLeft ≤ r.attemptsLeft
  lt : ∀ r ∈ rows, (f r).attemptsLeft ≤ r.attemptsLeft - 1
  other : ∀ r ∈ outbox, r ∉ rows → f r = r
  sum : (outbox.map fun r => (f r).attemptsLeft).sum + rows.length
    ≤ (outbox.map fun r => r.attemptsLeft).sum

section

variable {rows outbox : List OutboxMessage} {row : OutboxMessage}
  {f g : OutboxMessage → OutboxMessage}

theorem Works.nil (h : Dispatchable outbox) : Works [] outbox fun r => r where
  id _ := rfl
  left := h.left
  le _ _ := le_rfl
  lt _ hr := absurd hr List.not_mem_nil
  other _ _ _ := rfl
  sum := le_rfl

theorem Works.dispatchable (h : Works rows outbox f) (hd : Dispatchable outbox) :
    Dispatchable (outbox.map f) where
  ids := by
    rw [List.map_map]
    exact (List.map_congr_left fun r _ => h.id r) ▸ hd.ids
  left := by
    intro r hr
    obtain ⟨r₀, hr₀, rfl⟩ := List.mem_map.mp hr
    exact h.left r₀ hr₀

/-- An attempt of one row. -/
theorem Attempted.works {u : OutboxUpdate} (hd : Dispatchable outbox) (hrow : row ∈ outbox)
    (hpending : row.status = .pending) (hu : Attempted row u) :
    Works [row] outbox fun r => if r.id = row.id then u.apply r else r := by
  obtain ⟨hcost, hleft⟩ := hu.attemptsLeft hpending (hd.left row hrow hpending)
  have hsame : ∀ r ∈ outbox, r.id = row.id → r = row := fun r hr hid =>
    List.inj_on_of_nodup_map hd.ids hr hrow hid
  have hle : ∀ r ∈ outbox,
      (if r.id = row.id then u.apply r else r).attemptsLeft ≤ r.attemptsLeft := by
    intro r hr
    split
    · rename_i hid
      obtain rfl := hsame r hr hid
      omega
    · exact le_rfl
  refine ⟨fun r => ?_, fun r hr => ?_, hle, fun r hr => ?_, fun r hr hnot => ?_, ?_⟩
  · split
    · exact OutboxUpdate.apply_id u r
    · rfl
  · split
    · rename_i hid
      obtain rfl := hsame r hr hid
      exact hleft
    · exact hd.left r hr
  · obtain rfl := List.mem_singleton.mp hr
    rw [if_pos rfl]
    omega
  · exact if_neg fun hid => hnot (List.mem_singleton.mpr (hsame r hr hid))
  · refine Nat.succ_le_of_lt (List.sum_lt_sum _ _ hle ⟨row, hrow, ?_⟩)
    rw [if_pos rfl]
    exact hcost

/-- One row and then the others. -/
theorem Works.cons (hf : Works [row] outbox f) (hg : Works rows (outbox.map f) g)
    (hrows : ∀ r ∈ rows, r ∈ outbox) (hnew : row ∉ rows) (hrow : row ∈ outbox) :
    Works (row :: rows) outbox (g ∘ f) := by
  have hmap : ∀ {r}, r ∈ outbox → f r ∈ outbox.map f := fun hr => List.mem_map_of_mem hr
  have hkept : ∀ r ∈ rows, f r = r := fun r hr =>
    hf.other r (hrows r hr) fun hmem => hnew (List.mem_singleton.mp hmem ▸ hr)
  refine ⟨fun r => (hg.id _).trans (hf.id r), fun r hr => hg.left _ (hmap hr),
    fun r hr => (hg.le _ (hmap hr)).trans (hf.le r hr), fun r hr => ?_, fun r hr hnot => ?_, ?_⟩
  · rcases List.mem_cons.mp hr with rfl | hr
    · exact (hg.le _ (hmap hrow)).trans (hf.lt _ (List.mem_singleton_self _))
    · rw [Function.comp, hkept r hr]
      exact hg.lt r hr
  · rw [List.mem_cons, not_or] at hnot
    have hfr : f r = r := hf.other r hr fun hmem => hnot.1 (List.mem_singleton.mp hmem)
    have hgr := hg.other (f r) (hmap hr)
    rw [hfr] at hgr
    rw [Function.comp, hfr]
    exact hgr hnot.2
  · have hsum := hg.sum
    rw [List.map_map, List.map_map] at hsum
    have hfirst := hf.sum
    rw [List.length_cons]
    simp only [Function.comp_def, List.length_singleton] at hsum hfirst ⊢
    omega

end

/-- A row of a batch is attempted and counted, published or not. -/
theorem runs_dispatchRow {row : OutboxMessage} {result : DispatchResult} {s s' : Store}
    {out : Except JsError DispatchResult} (hd : Dispatchable s.outbox) (hrow : row ∈ s.outbox)
    (hpending : row.status = .pending)
    (h : Runs dispatcherExec (Prog.tryCatch
      (do
        dispatchOutboxEvent row
        pure { result with published := result.published + 1 })
      fun _ => pure { result with failed := result.failed + 1 }) s out s') :
    (∃ next : DispatchResult, out = .ok next ∧ next.fetched = result.fetched
      ∧ next.published + next.failed = result.published + result.failed + 1)
    ∧ ∃ f, s'.outbox = s.outbox.map f ∧ Works [row] s.outbox f := by
  rcases runs_tryCatch h with ⟨next, hbody, rfl⟩ | ⟨error, s₂, hbody, hcatch⟩
  · rcases runs_bind hbody with ⟨e, -, hok⟩ | ⟨_, s₂, hdispatch, hpure⟩
    · cases hok
    · obtain ⟨hnext, rfl⟩ := runs_pure hpure
      cases hnext
      obtain ⟨u, hu, hs'⟩ := runs_dispatchOutboxEvent hrow hpending hdispatch
      exact ⟨⟨_, rfl, rfl, by simp only []; omega⟩, _, hs', hu.works hd hrow hpending⟩
  · obtain ⟨rfl, rfl⟩ := runs_pure hcatch
    refine ⟨⟨_, rfl, rfl, by simp only []; omega⟩, ?_⟩
    rcases runs_bind hbody with ⟨e, hdispatch, -⟩ | ⟨_, s₂, -, hpure⟩
    · obtain ⟨u, hu, hs'⟩ := runs_dispatchOutboxEvent hrow hpending hdispatch
      exact ⟨_, hs', hu.works hd hrow hpending⟩
    · cases (runs_pure hpure).1

/-- A batch attempts each of its rows, throws nothing, and counts them. -/
theorem runs_dispatchBatch : ∀ {rows : List OutboxMessage} {result : DispatchResult}
    {s s' : Store} {out : Except JsError DispatchResult}, Dispatchable s.outbox → rows.Nodup →
    (∀ r ∈ rows, r ∈ s.outbox ∧ r.status = .pending) →
    Runs dispatcherExec (dispatchBatch rows result) s out s' →
    (∃ final : DispatchResult, out = .ok final ∧ final.fetched = result.fetched
      ∧ final.published + final.failed = result.published + result.failed + rows.length)
    ∧ ∃ f, s'.outbox = s.outbox.map f ∧ Works rows s.outbox f
  | [], result, s, s', out, hd, _, _, h => by
      obtain ⟨rfl, rfl⟩ := runs_pure h
      exact ⟨⟨result, rfl, rfl, rfl⟩, _, (List.map_id' _).symm, .nil hd⟩
  | row :: rows, result, s, s', out, hd, hnodup, hrows, h => by
      obtain ⟨⟨hrow, hpending⟩, hrest⟩ := List.forall_mem_cons.mp hrows
      obtain ⟨hnew, hnodup⟩ := List.nodup_cons.mp hnodup
      rw [dispatchBatch] at h
      rcases runs_bind h with ⟨e, hfirst, -⟩ | ⟨next, s₁, hfirst, hothers⟩
      · obtain ⟨next, hok, -⟩ := (runs_dispatchRow hd hrow hpending hfirst).1
        cases hok
      · obtain ⟨⟨_, hnext, hfetched, hcount⟩, f, hs₁, hf⟩ :=
          runs_dispatchRow hd hrow hpending hfirst
        cases hnext
        have hkept : ∀ r ∈ rows, r ∈ s₁.outbox ∧ r.status = .pending := by
          intro r hr
          obtain ⟨hmem, hp⟩ := hrest r hr
          have hfr : f r = r :=
            hf.other r hmem fun h' => hnew (List.mem_singleton.mp h' ▸ hr)
          exact ⟨hs₁ ▸ List.mem_map.mpr ⟨r, hmem, hfr⟩, hp⟩
        obtain ⟨⟨final, hfinal, hfetched', hcount'⟩, g, hs', hg⟩ :=
          runs_dispatchBatch (hs₁ ▸ hf.dispatchable hd) hnodup hkept hothers
        rw [hs₁] at hs' hg
        refine ⟨⟨final, hfinal, hfetched'.trans hfetched, ?_⟩, g ∘ f, ?_, ?_⟩
        · rw [List.length_cons]
          omega
        · rw [hs', List.map_map]
        · exact hf.cons hg (fun r hr => (hrest r hr).1) hnew hrow

/-! ## A call -/

/-- The rows fetched, in whatever order: pending ones, and all of them unless
there are `batchSize`. -/
theorem fetched_rows {outbox rows : List OutboxMessage} {ctx : DbContext} {batchSize : Nat}
    (hd : Dispatchable outbox)
    (hrows : rows = (Store.orderByCreatedAt ctx (outbox.filter
      (OutboxFilter.attemptsBelow outboxMaxPublishAttempts).matches)).take batchSize) :
    rows.Nodup ∧ (∀ r ∈ rows, r ∈ outbox ∧ r.status = .pending)
      ∧ (rows.length = batchSize ∨ ∀ r ∈ outbox, r.status = .pending → r ∈ rows) := by
  have hperm := List.perm_insertionSort (fun a b : OutboxMessage =>
    a.createdAt < b.createdAt ∨ a.createdAt = b.createdAt ∧ ctx.rank a.id ≤ ctx.rank b.id)
    (outbox.filter (OutboxFilter.attemptsBelow outboxMaxPublishAttempts).matches)
  rw [hrows, Store.orderByCreatedAt]
  refine ⟨?_, fun r hr => ?_, ?_⟩
  · exact (hperm.nodup_iff.mpr (hd.ids.of_map.filter _)).sublist (List.take_sublist _ _)
  · have hmem := List.mem_filter.mp (hperm.mem_iff.mp (List.mem_of_mem_take hr))
    simp only [OutboxFilter.matches, decide_eq_true_eq] at hmem
    exact ⟨hmem.1, hmem.2.1⟩
  · rw [List.length_take]
    rcases Nat.le_total batchSize (List.length _) with hfull | hall
    · exact Or.inl (Nat.min_eq_left hfull)
    · refine Or.inr fun r hr hpending => ?_
      rw [List.take_of_length_le hall]
      refine hperm.mem_iff.mpr (List.mem_filter.mpr ⟨hr, ?_⟩)
      simpa only [OutboxFilter.matches, decide_eq_true_eq] using ⟨hpending, hd.left r hr hpending⟩

theorem Works.batch {rows outbox : List OutboxMessage} {f : OutboxMessage → OutboxMessage}
    {batchSize : Nat} (h : Works rows outbox f)
    (hrows : rows.length = batchSize ∨ ∀ r ∈ outbox, r.status = .pending → r ∈ rows) :
    Drain.Batch batchSize (outbox.map (·.attemptsLeft)) ((outbox.map f).map (·.attemptsLeft)) where
  le := by
    rw [List.map_map, List.forall₂_map_left_iff, List.forall₂_map_right_iff, List.forall₂_same]
    exact h.le
  progress := by
    rcases hrows with rfl | hall
    · refine Or.inl ?_
      rw [List.map_map]
      exact h.sum
    · refine Or.inr ?_
      rw [List.map_map, List.forall₂_map_left_iff, List.forall₂_map_right_iff, List.forall₂_same]
      intro r hr
      by_cases hpending : r.status = .pending
      · exact h.lt r (hall r hr hpending)
      · have hdone : r.attemptsLeft = 0 := if_neg hpending
        have := h.le r hr
        rw [hdone] at this ⊢
        exact this

theorem runs_dispatchPendingOutboxMessages {batchSize : Nat} {s s' : Store}
    {out : Except JsError DispatchResult} (hd : Dispatchable s.outbox)
    (h : Runs dispatcherExec (dispatchPendingOutboxMessages batchSize) s out s') :
    (∃ result : DispatchResult, out = .ok result
        ∧ result.fetched = result.published + result.failed)
      ∧ Dispatchable s'.outbox
      ∧ Drain.Batch batchSize (s.outbox.map (·.attemptsLeft)) (s'.outbox.map (·.attemptsLeft)) := by
  rcases runs_bind h with ⟨e, hfind, -⟩ | ⟨rows, s₁, hfind, hbatch⟩
  · obtain ⟨reply, ⟨ctx, r, -, rfl⟩ | ⟨-, ⟨ctx, hrun⟩, -⟩, hout⟩ := runs_perform hfind
    · cases hout
    · cases hrun
  obtain ⟨reply, ⟨ctx, r, hrun, rfl⟩ | ⟨-, ⟨ctx, hrun⟩, -⟩, hout⟩ := runs_perform hfind
  · cases hout
    cases hrun
    obtain ⟨hnodup, hpending, hlength⟩ := @fetched_rows _ _ ctx _ hd rfl
    obtain ⟨⟨final, rfl, hfetched, hcount⟩, f, hs', hf⟩ :=
      runs_dispatchBatch hd hnodup hpending hbatch
    refine ⟨⟨final, rfl, ?_⟩, hs' ▸ hf.dispatchable hd, hs' ▸ hf.batch hlength⟩
    rw [hfetched, hcount]
    simp
  · cases hrun

theorem DispatchCalls.batches {batchSize : Nat} {outs : List (Except JsError DispatchResult)}
    {s s' : Store} (h : DispatchCalls batchSize outs s s') (hd : Dispatchable s.outbox) :
    (∀ out ∈ outs, ∃ result : DispatchResult, out = .ok result
        ∧ result.fetched = result.published + result.failed)
      ∧ Dispatchable s'.outbox
      ∧ Drain.Batches batchSize outs.length (s.outbox.map (·.attemptsLeft))
          (s'.outbox.map (·.attemptsLeft)) := by
  induction h with
  | nil s => exact ⟨by simp, hd, .nil _⟩
  | cons hcall _ ih =>
      obtain ⟨hout, hd₁, hbatch⟩ := runs_dispatchPendingOutboxMessages hd hcall
      obtain ⟨houts, hd', hbatches⟩ := ih hd₁
      exact ⟨List.forall_mem_cons.mpr ⟨hout, houts⟩, hd', .cons hbatch hbatches⟩

/-- The attempts left are at most five for each pending row. -/
theorem sum_attemptsLeft_le : ∀ outbox : List OutboxMessage,
    (outbox.map (·.attemptsLeft)).sum
      ≤ outboxMaxPublishAttempts * outbox.countP (fun row => row.status = .pending)
  | [] => le_rfl
  | row :: outbox => by
      have ih := sum_attemptsLeft_le outbox
      rw [List.map_cons, List.sum_cons, List.countP_cons, OutboxMessage.attemptsLeft, Nat.mul_add]
      split
      · simp only [*, decide_true, if_true]
        omega
      · simp only [*, decide_false, Bool.false_eq_true, if_false]
        omega

/-! ## The bound -/

/-- A dispatcher that is alone leaves no row pending after `5 * k / b + 5`
calls, where `k` rows were pending at first and a batch has at most `b`; and
every call counts each row it fetched once, as published or as failed. -/
theorem outbox_drained {batchSize : Nat} {outs : List (Except JsError DispatchResult)}
    {s s' : Store} (hsize : 1 ≤ batchSize) (hids : (s.outbox.map (·.id)).Nodup)
    (hattempts : ∀ row ∈ s.outbox, row.status = .pending → row.attempts < 5)
    (hcalls : DispatchCalls batchSize outs s s') :
    (∀ out ∈ outs, ∃ result : DispatchResult, out = .ok result
        ∧ result.fetched = result.published + result.failed)
      ∧ (5 * s.outbox.countP (fun row => row.status = .pending) / batchSize + 5 ≤ outs.length →
          ∀ row ∈ s'.outbox, row.status ≠ .pending) := by
  obtain ⟨houts, hd', hbatches⟩ := hcalls.batches ⟨hids, hattempts⟩
  refine ⟨houts, fun hlength row hrow hpending => ?_⟩
  have hlimit : ∀ t ∈ s.outbox.map (·.attemptsLeft), t ≤ outboxMaxPublishAttempts := by
    refine List.forall_mem_map.mpr fun r _ => ?_
    rw [OutboxMessage.attemptsLeft]
    split <;> omega
  have hsum := Nat.div_le_div_right (c := batchSize) (sum_attemptsLeft_le s.outbox)
  have hdone := Drain.drained hsize hbatches hlimit
    ((Nat.add_le_add_right hsum outboxMaxPublishAttempts).trans hlength)
    row.attemptsLeft (List.mem_map_of_mem hrow)
  rw [OutboxMessage.attemptsLeft, if_pos hpending] at hdone
  have := hd'.left row hrow hpending
  omega

/-- A store with two events that nobody has published. -/
def unpublishedStore : Store :=
  let m := newCommand defaultWorkflowDefinition
  { Store.empty with
    outbox :=
      [Store.newOutboxMessage ⟨0, "started", fun _ => 0⟩ .workflowExecutionStarted
        (createWorkflowExecutionStartedMessage m "first" "1970-01-01T00:00:00.000Z"),
      Store.newOutboxMessage ⟨0, "completed", fun _ => 0⟩ .workflowExecutionCompleted
        (createWorkflowExecutionCompletedMessage m "second" [] 0 0)] }

/-- Fifteen batches of one are enough for two rows. -/
theorem outbox_drained_ofTwo :
    ∃ outs s', DispatchCalls 1 outs unpublishedStore s' ∧ outs.length = 15
      ∧ ∀ row ∈ s'.outbox, row.status ≠ .pending := by
  obtain ⟨outs, s', hcalls, hlength⟩ := exists_dispatchCalls 1 15 unpublishedStore
  refine ⟨outs, s', hcalls, hlength,
    (outbox_drained le_rfl ?_ ?_ hcalls).2 (le_of_le_of_eq ?_ hlength.symm)⟩
  · decide
  · simp [unpublishedStore, Store.newOutboxMessage]
  · decide

end FlowPilot
