import Mathlib.Data.Set.Finite.List
import Mathlib.Logic.Relation
import Mathlib.Order.WellFounded

/-!
# Loops and finite precedence relations

The two general facts the graph algorithms rest on, independent of any
particular program:

- **Fuelled loops.** `loop step n s` runs `step` from `s` until it stops,
  giving up (`none`) after `n` rounds. `loop_total` is the total-correctness
  rule: an invariant plus a natural-number measure that every round
  decreases give an actual result, satisfying the invariant, at which the
  loop has stopped.
- **Finite precedence.** A relation whose sources all lie in one list and
  that has no cycle is well founded (`wellFounded_of_acyclic`); conversely
  an element accessible along successors lies on no cycle
  (`not_transGen_self_of_acc`).
-/

namespace Loop

/-! ## Fuelled loops -/

/-- Run `step` until it returns `none` (the loop guard is false), for fewer
than `n` rounds; `none` when the fuel runs out first. -/
def loop {σ : Type} (step : σ → Option σ) : Nat → σ → Option σ
  | 0, _ => none
  | n + 1, s =>
      match step s with
      | none => some s
      | some s' => loop step n s'

variable {σ : Type}

/-- Total correctness: an invariant and a decreasing measure below the fuel
make the loop stop in a state that satisfies the invariant. -/
theorem loop_total (step : σ → Option σ) (Inv : σ → Prop) (μ : σ → Nat)
    (hstep : ∀ s s', Inv s → step s = some s' → Inv s' ∧ μ s' < μ s) :
    ∀ {n : Nat} {s : σ}, Inv s → μ s < n →
      ∃ r, loop step n s = some r ∧ Inv r ∧ step r = none
  | 0, _, _, hlt => absurd hlt (Nat.not_lt_zero _)
  | n + 1, s, hinv, hlt => by
      cases hs : step s with
      | none => exact ⟨s, by simp [loop, hs], hinv, hs⟩
      | some s' =>
          obtain ⟨hinv', hdec⟩ := hstep s s' hinv hs
          obtain ⟨r, hr, hpost⟩ := loop_total step Inv μ hstep (n := n) hinv' (by omega)
          exact ⟨r, by simpa [loop, hs] using hr, hpost⟩

/-- Partial correctness: what every round keeps holds where the loop has
stopped. -/
theorem loop_invariant {step : σ → Option σ} {Inv : σ → Prop}
    (hstep : ∀ s s', Inv s → step s = some s' → Inv s') :
    ∀ {n : Nat} {s r : σ}, loop step n s = some r → Inv s → Inv r ∧ step r = none
  | n + 1, s, r, hloop, hinv => by
      rw [loop] at hloop
      cases hs : step s with
      | none =>
          simp only [hs, Option.some.injEq] at hloop
          subst hloop
          exact ⟨hinv, hs⟩
      | some s' =>
          simp only [hs] at hloop
          exact loop_invariant hstep hloop (hstep s s' hinv hs)

/-! ## Finite precedence relations -/

variable {α : Type} {R : α → α → Prop}

/-- A relation without cycles whose sources all lie in one list is well
founded: on the subtype of the list the transitive closure is a strict
order on a finite type. -/
theorem wellFounded_of_acyclic {l : List α} (hfin : ∀ a b, R a b → a ∈ l)
    (hacyc : ∀ a, ¬ Relation.TransGen R a a) : WellFounded R := by
  let r : {a // a ∈ l} → {a // a ∈ l} → Prop := fun a b => Relation.TransGen R a b
  have : Finite {a // a ∈ l} := (List.finite_toSet l).to_subtype
  have : IsTrans {a // a ∈ l} r := ⟨fun _ _ _ hab hbc => hab.trans hbc⟩
  have : Std.Irrefl r := ⟨fun a h => hacyc a h⟩
  have hwf : WellFounded r := Finite.wellFounded_of_trans_of_irrefl r
  have hacc : ∀ a : {a // a ∈ l}, Acc R a := by
    intro a
    induction a using hwf.induction with
    | _ a ih =>
        exact Acc.intro _ fun b hb => ih ⟨b, hfin b a hb⟩ (Relation.TransGen.single hb)
  exact ⟨fun a => Acc.intro a fun b hb => hacc ⟨b, hfin b a hb⟩⟩

/-- An element accessible along `R`'s successors lies on no `R`-cycle. -/
theorem not_transGen_self_of_acc {a : α} (h : Acc (fun x y => R y x) a) :
    ¬ Relation.TransGen R a a := by
  induction h with
  | intro a _ ih =>
      intro hcyc
      obtain ⟨b, hab, hba⟩ := Relation.TransGen.head'_iff.mp hcyc
      exact ih b hab (Relation.TransGen.tail' hba hab)

end Loop
