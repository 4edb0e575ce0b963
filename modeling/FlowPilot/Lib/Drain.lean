import Mathlib.Algebra.GroupWithZero.Nat
import Mathlib.Algebra.Order.BigOperators.Group.List
import Mathlib.Data.List.Forall2

/-!
# Draining items with bounded tries

Items are worked off in batches. Each has a number of tries left, and a batch
that takes an item costs it at least one; an item without tries is done. A
batch is limited in size: it takes that many items or, where fewer are left,
all of them. Nothing is said about which items it takes, so an item that
keeps failing may be taken again and again.

Still the items are done after a number of batches that their tries bound
(`drained`): the batches that are full use up the tries together, the others
those of every item.
-/

namespace Drain

/-- A batch of `size`, on the tries left: no item gains any, and either the
batch is full and costs a try for each of its items, or every item that is
left pays. -/
structure Batch (size : Nat) (tries tries' : List Nat) : Prop where
  le : List.Forall₂ (fun t t' => t' ≤ t) tries tries'
  progress : tries'.sum + size ≤ tries.sum ∨ List.Forall₂ (fun t t' => t' ≤ t - 1) tries tries'

/-- A sequence of batches. -/
inductive Batches (size : Nat) : Nat → List Nat → List Nat → Prop
  | nil (tries : List Nat) : Batches size 0 tries tries
  | cons {n : Nat} {tries tries₁ tries' : List Nat} :
      Batch size tries tries₁ → Batches size n tries₁ tries' → Batches size (n + 1) tries tries'

theorem sum_le_of_le {tries tries' : List Nat}
    (h : List.Forall₂ (fun t t' => t' ≤ t) tries tries') : tries'.sum ≤ tries.sum := by
  induction h with
  | nil => exact le_rfl
  | cons hle _ ih =>
      rw [List.sum_cons, List.sum_cons]
      exact Nat.add_le_add hle ih

theorem forall_le_of_forall₂ {R : Nat → Nat → Prop} {bound bound' : Nat} {tries tries' : List Nat}
    (hR : ∀ t t', t ≤ bound → R t t' → t' ≤ bound') (h : List.Forall₂ R tries tries')
    (hbound : ∀ t ∈ tries, t ≤ bound) : ∀ t ∈ tries', t ≤ bound' := by
  induction h with
  | nil => simp
  | cons hle _ ih =>
      rw [List.forall_mem_cons] at hbound ⊢
      exact ⟨hR _ _ hbound.1 hle, ih hbound.2⟩

/-- After any number of batches: `full` of them were, and the other `rest`
cost every item a try. -/
theorem Batches.count {size n : Nat} {tries tries' : List Nat} (h : Batches size n tries tries') :
    ∀ {limit : Nat}, (∀ t ∈ tries, t ≤ limit) →
      ∃ full rest, n = full + rest ∧ tries'.sum + full * size ≤ tries.sum
        ∧ ∀ t ∈ tries', t ≤ limit - rest := by
  induction h with
  | nil tries => exact fun hlimit => ⟨0, 0, rfl, by simp, hlimit⟩
  | cons hbatch _ ih =>
      intro limit hlimit
      rcases hbatch.progress with hfull | hall
      · have hlimit₁ := forall_le_of_forall₂ (fun _ _ ht hle => hle.trans ht) hbatch.le hlimit
        obtain ⟨full, rest, rfl, hsum, hleft⟩ := ih hlimit₁
        refine ⟨full + 1, rest, by omega, ?_, hleft⟩
        rw [Nat.add_mul, Nat.one_mul]
        omega
      · have hlimit₁ := forall_le_of_forall₂
          (fun _ _ ht hle => hle.trans (Nat.sub_le_sub_right ht 1)) hall hlimit
        obtain ⟨full, rest, rfl, hsum, hleft⟩ := ih hlimit₁
        refine ⟨full, rest + 1, by omega, hsum.trans (sum_le_of_le hbatch.le), fun t ht => ?_⟩
        have := hleft t ht
        omega

/-- Enough batches leave nothing to do. -/
theorem drained {size n limit : Nat} {tries tries' : List Nat} (hsize : 1 ≤ size)
    (h : Batches size n tries tries') (hlimit : ∀ t ∈ tries, t ≤ limit)
    (hn : tries.sum / size + limit ≤ n) : ∀ t ∈ tries', t = 0 := by
  obtain ⟨full, rest, rfl, hsum, hleft⟩ := h.count hlimit
  have hfull : full ≤ tries.sum / size := by
    rw [Nat.le_div_iff_mul_le hsize]
    omega
  intro t ht
  have := hleft t ht
  omega

end Drain
