import FlowPilot.Lib.Worklist
import Mathlib.Order.Bounds.Defs

/-!
# Longest paths by relaxation

A worklist that gives levels: the elements of `start` begin at level `0`, and
taking an element off the queue raises each of its successors above it and
pushes it again. An element may be taken several times, at lower levels first.

`Relaxing` is the invariant of the rounds: a level is always the length of a
path, and only an element that is queued may still be above a successor. So
where the queue is empty the levels are the lengths of the longest paths
(`Relaxing.isGreatest`).
-/

namespace Relaxation

open Relation

variable {α : Type} {start : α → Prop} {succ : α → List α} {queue : List α}
  {level level' : α → Option Nat}

/-- A path of `n` edges ends in an element; it begins in one of `start`. -/
inductive PathTo (start : α → Prop) (R : α → α → Prop) : Nat → α → Prop
  | start {a : α} : start a → PathTo start R 0 a
  | step {n : Nat} {a b : α} : PathTo start R n a → R a b → PathTo start R (n + 1) b

/-- The levels while the elements of `queue` are still to be taken. -/
structure Relaxing (start : α → Prop) (succ : α → List α) (queue : List α)
    (level : α → Option Nat) : Prop where
  path : ∀ {a n}, level a = some n → PathTo start (Worklist.Next succ) n a
  started : ∀ {a}, start a → ∃ n, level a = some n
  queued : ∀ {a}, a ∈ queue → ∃ n, level a = some n
  settled : ∀ {a b n}, level a = some n → a ∉ queue → b ∈ succ a → ∃ m, level b = some m ∧ n < m

/-- The levels when the elements of `targets` have been raised to `n`. -/
structure Raised (targets : List α) (n : Nat) (level level' : α → Option Nat) : Prop where
  target : ∀ a ∈ targets, level' a = some (max ((level a).getD 0) n)
  other : ∀ a, a ∉ targets → level' a = level a

/-- Raising lowers no level. -/
theorem Raised.le {targets : List α} {n m : Nat} {a : α} (h : Raised targets n level level')
    (hlevel : level a = some m) : ∃ m', level' a = some m' ∧ m ≤ m' := by
  by_cases ha : a ∈ targets
  · refine ⟨_, h.target a ha, ?_⟩
    rw [hlevel]
    exact Nat.le_max_left _ _
  · exact ⟨m, (h.other a ha).trans hlevel, le_rfl⟩

/-- All elements of `start` are queued, at level `0`. -/
theorem relaxing_start (hqueue : ∀ a, a ∈ queue ↔ start a)
    (hlevel : ∀ a, start a → level a = some 0) (hother : ∀ a, ¬ start a → level a = none) :
    Relaxing start succ queue level := by
  have hstart : ∀ {a n}, level a = some n → start a := by
    intro a n ha
    by_contra hnot
    cases (hother a hnot).symm.trans ha
  refine ⟨fun ha => ?_, fun ha => ⟨0, hlevel _ ha⟩,
    fun ha => ⟨0, hlevel _ ((hqueue _).mp ha)⟩, fun ha hnot => ?_⟩
  · obtain rfl := Option.some.inj ((hlevel _ (hstart ha)).symm.trans ha)
    exact .start (hstart ha)
  · exact absurd ((hqueue _).mpr (hstart ha)) hnot

/-- A round keeps the invariant. -/
theorem Relaxing.round {x : α} {n : Nat} (h : Relaxing start succ (x :: queue) level)
    (hx : level x = some n) (hraised : Raised (succ x) (n + 1) level level') :
    Relaxing start succ (queue ++ succ x) level' := by
  have hpath := h.path hx
  refine ⟨fun {a m} ha => ?_, fun {a} ha => ?_, fun {a} ha => ?_, fun {a b m} ha hnot hb => ?_⟩
  · by_cases hsucc : a ∈ succ x
    · have hm := (hraised.target a hsucc).symm.trans ha
      cases hold : level a with
      | none =>
          simp only [hold, Option.getD_none, Nat.zero_max, Option.some.injEq] at hm
          exact hm ▸ .step hpath hsucc
      | some k =>
          simp only [hold, Option.getD_some, Option.some.injEq] at hm
          rcases Nat.le_total k (n + 1) with hle | hle
          · rw [Nat.max_eq_right hle] at hm
            exact hm ▸ .step hpath hsucc
          · rw [Nat.max_eq_left hle] at hm
            exact hm ▸ h.path hold
    · exact h.path ((hraised.other a hsucc).symm.trans ha)
  · obtain ⟨m, hm⟩ := h.started ha
    obtain ⟨m', hm', -⟩ := hraised.le hm
    exact ⟨m', hm'⟩
  · rcases List.mem_append.mp ha with ha | ha
    · obtain ⟨m, hm⟩ := h.queued (List.mem_cons_of_mem _ ha)
      obtain ⟨m', hm', -⟩ := hraised.le hm
      exact ⟨m', hm'⟩
    · exact ⟨_, hraised.target a ha⟩
  · rw [List.mem_append, not_or] at hnot
    have hold : level a = some m := (hraised.other a hnot.2).symm.trans ha
    by_cases hax : a = x
    · subst hax
      obtain rfl := Option.some.inj (hx.symm.trans hold)
      exact ⟨_, hraised.target b hb, Nat.le_max_right _ _⟩
    · obtain ⟨k, hk, hlt⟩ := h.settled hold (by simp [hax, hnot.1]) hb
      obtain ⟨k', hk', hle⟩ := hraised.le hk
      exact ⟨k', hk', hlt.trans_le hle⟩

/-- With nothing queued, an element has a level that no path to it exceeds. -/
theorem Relaxing.le_level {n : Nat} {a : α} (h : Relaxing start succ [] level)
    (hpath : PathTo start (Worklist.Next succ) n a) : ∃ m, level a = some m ∧ n ≤ m := by
  induction hpath with
  | start ha =>
      obtain ⟨m, hm⟩ := h.started ha
      exact ⟨m, hm, Nat.zero_le m⟩
  | step _ hnext ih =>
      obtain ⟨k, hk, hle⟩ := ih
      obtain ⟨m, hm, hlt⟩ := h.settled hk List.not_mem_nil hnext
      exact ⟨m, hm, Nat.succ_le_of_lt (hle.trans_lt hlt)⟩

/-- With nothing queued, levels are the lengths of the longest paths. -/
theorem Relaxing.isGreatest {n : Nat} {a : α} (h : Relaxing start succ [] level)
    (hlevel : level a = some n) :
    IsGreatest {m | PathTo start (Worklist.Next succ) m a} n := by
  refine ⟨h.path hlevel, fun m hm => ?_⟩
  obtain ⟨k, hk, hle⟩ := h.le_level hm
  exact hle.trans_eq (Option.some.inj (hk.symm.trans hlevel))

/-- Where every element has a predecessor or is in `start`, and going back
ends, a path leads to every element. -/
theorem exists_pathTo {R : α → α → Prop} {P : α → Prop} (hwf : WellFounded R)
    (hback : ∀ b, P b → start b ∨ ∃ a, P a ∧ R a b) (b : α) (hb : P b) :
    ∃ n, PathTo start R n b := by
  induction b using hwf.induction with
  | _ b ih =>
      rcases hback b hb with hstart | ⟨a, ha, hab⟩
      · exact ⟨0, .start hstart⟩
      · obtain ⟨n, hn⟩ := ih a hab ha
        exact ⟨n + 1, .step hn hab⟩

end Relaxation
