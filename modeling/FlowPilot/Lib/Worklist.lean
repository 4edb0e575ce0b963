import FlowPilot.Lib.Loop
import Mathlib.Logic.Hydra

/-!
# Worklists without a visited set

A loop that takes the first element of a queue and pushes all its
successors again, whether or not they were met before. It stops on exactly
the queues whose elements are accessible along successors
(`terminates_iff`): each round is a move of the hydra game, which ends from
accessible heads, and a run that ends meets every successor. In a finite
graph that means that no cycle is reachable from the queue
(`acc_iff_no_cycle`), and it stays so when an edge is added that closes none
(`acyclic_of_added_edge`).
-/

namespace Worklist

open Loop Relation

variable {α β : Type}

/-- One round: the first element is taken, `visit` notes it, and its
successors are pushed. -/
def step (succ : α → List α) (visit : α → β → β) : List α × β → Option (List α × β)
  | ([], _) => none
  | (x :: queue, b) => some (queue ++ succ x, visit x b)

/-- `y` is a successor of `x`. -/
def Next (succ : α → List α) (x y : α) : Prop := y ∈ succ x

/-! ## When the loop stops -/

/-- The successors of accessible elements, a relation no element is in with
itself. -/
def Below (succ : α → List α) (y x : α) : Prop :=
  y ∈ succ x ∧ Acc (fun y x => Next succ x y) x

theorem below_irrefl (succ : α → List α) : Std.Irrefl (Below succ) :=
  ⟨fun _ hx => not_transGen_self_of_acc (R := Next succ) hx.2 (.single hx.1)⟩

theorem acc_below {succ : α → List α} {x : α} (hx : Acc (fun y x => Next succ x y) x) :
    Acc (Below succ) x := by
  induction hx with
  | intro x _ ih => exact Acc.intro x fun y hy => ih y hy.1

/-- A queue of accessible elements is an accessible hydra. -/
theorem acc_queue {succ : α → List α} {queue : List α}
    (h : ∀ x ∈ queue, Acc (fun y x => Next succ x y) x) :
    Acc (CutExpand (Below succ)) (queue : Multiset α) := by
  have := below_irrefl succ
  refine acc_of_singleton fun x hx => ?_
  exact (acc_below (h x (Multiset.mem_coe.mp hx))).cutExpand

/-- A round takes one head off and grows its successors. -/
theorem cutExpand_step {succ : α → List α} {x : α} (queue : List α)
    (hx : Acc (fun y x => Next succ x y) x) :
    CutExpand (Below succ) (queue ++ succ x : List α) (x :: queue : List α) := by
  refine ⟨(succ x : Multiset α), x, fun y hy => ⟨Multiset.mem_coe.mp hy, hx⟩, ?_⟩
  rw [← Multiset.coe_add, ← Multiset.cons_coe, ← Multiset.singleton_add,
    add_comm (queue : Multiset α), add_assoc, add_comm (queue : Multiset α),
    add_comm (succ x : Multiset α)]

theorem stops_of_acc {succ : α → List α} (visit : α → β → β) {heads : Multiset α}
    (hheads : Acc (CutExpand (Below succ)) heads) :
    ∀ (queue : List α) (b : β), (queue : Multiset α) = heads →
      (∀ x ∈ queue, Acc (fun y x => Next succ x y) x) →
      ∃ n, (loop (step succ visit) n (queue, b)).isSome := by
  induction hheads with
  | intro heads _ ih =>
      intro queue b hqueue hacc
      cases queue with
      | nil => exact ⟨1, rfl⟩
      | cons x queue =>
          have hx := hacc x List.mem_cons_self
          have hrest : ∀ y ∈ queue ++ succ x, Acc (fun y x => Next succ x y) y := by
            intro y hy
            rcases List.mem_append.mp hy with hy | hy
            · exact hacc y (List.mem_cons_of_mem _ hy)
            · exact hx.inv hy
          obtain ⟨n, hn⟩ := ih _ (hqueue ▸ cutExpand_step queue hx) (queue ++ succ x) (visit x b)
            rfl hrest
          exact ⟨n + 1, hn⟩

theorem acc_of_stops {succ : α → List α} {visit : α → β → β} :
    ∀ {n : Nat} {queue : List α} {b : β}, (loop (step succ visit) n (queue, b)).isSome →
      ∀ x ∈ queue, Acc (fun y x => Next succ x y) x
  | n + 1, x :: queue, b, h => by
      have ih : ∀ y ∈ queue ++ succ x, Acc (fun y x => Next succ x y) y :=
        acc_of_stops (n := n) (b := visit x b) h
      intro y hy
      rcases List.mem_cons.mp hy with rfl | hy
      · exact Acc.intro _ fun z hz => ih z (List.mem_append_right _ hz)
      · exact ih y (List.mem_append_left _ hy)
  | _ + 1, [], _, _ => by simp

/-- The loop stops if and only if every element of the queue is accessible
along successors. -/
theorem terminates_iff (succ : α → List α) (visit : α → β → β) (queue : List α) (b : β) :
    (∃ n, (loop (step succ visit) n (queue, b)).isSome)
      ↔ ∀ x ∈ queue, Acc (fun y x => Next succ x y) x :=
  ⟨fun ⟨_, hn⟩ => acc_of_stops hn,
    fun h => stops_of_acc visit (acc_queue h) queue b rfl h⟩

/-! ## Accessibility in a finite graph -/

/-- In a graph whose edges all end in one list, an element is accessible
along successors if and only if it reaches no cycle. -/
theorem acc_iff_no_cycle {R : α → α → Prop} {l : List α} (hfin : ∀ a b, R a b → b ∈ l) (a : α) :
    Acc (fun y x => R x y) a ↔ ∀ b, ReflTransGen R a b → ¬ TransGen R b b := by
  constructor
  · intro ha b hab
    have hb : Acc (fun y x => R x y) b := by
      induction hab with
      | refl => exact ha
      | tail _ hstep ih => exact ih.inv hstep
    exact not_transGen_self_of_acc hb
  · intro h
    -- below `a` the reversed relation has finitely many sources and no cycle
    have hwf : WellFounded fun y x => ReflTransGen R a x ∧ R x y := by
      refine wellFounded_of_acyclic (fun y x hxy => hfin x y hxy.2) fun b hb => ?_
      obtain ⟨_, -, hreach, -⟩ := TransGen.tail'_iff.mp hb
      have hcycle : TransGen (Function.swap R) b b :=
        hb.lift id fun _ _ hxy => hxy.2
      exact h b hreach (transGen_swap.mp hcycle)
    have hdown : ∀ x, ReflTransGen R a x → Acc (fun y x => R x y) x := by
      intro x
      induction x using hwf.induction with
      | _ x ih => exact fun hx => Acc.intro x fun y hxy => ih y ⟨hx, hxy⟩ (hx.tail hxy)
    exact hdown a .refl

/-! ## Adding an edge -/

section AddEdge

variable {R R' : α → α → Prop} {s t : α}

/-- With one edge from `s` to `t` more and no way back, a path uses the new
edge at most once. -/
theorem path_of_added_edge (hadd : ∀ a b, R' a b → R a b ∨ a = s ∧ b = t)
    (hback : ¬ ReflTransGen R t s) {a b : α} (h : TransGen R' a b) :
    TransGen R a b ∨ ReflTransGen R a s ∧ ReflTransGen R t b := by
  induction h with
  | single hstep =>
      rcases hadd _ _ hstep with hold | ⟨rfl, rfl⟩
      · exact Or.inl (.single hold)
      · exact Or.inr ⟨.refl, .refl⟩
  | tail _ hstep ih =>
      rcases hadd _ _ hstep with hold | ⟨rfl, rfl⟩
      · rcases ih with hpath | ⟨hto, hfrom⟩
        · exact Or.inl (hpath.tail hold)
        · exact Or.inr ⟨hto, hfrom.tail hold⟩
      · rcases ih with hpath | ⟨-, hfrom⟩
        · exact Or.inr ⟨hpath.to_reflTransGen, .refl⟩
        · exact absurd hfrom hback

/-- An edge that leads to nothing it starts from closes no cycle. -/
theorem acyclic_of_added_edge (hadd : ∀ a b, R' a b → R a b ∨ a = s ∧ b = t)
    (hback : ¬ ReflTransGen R t s) (hacyc : ∀ a, ¬ TransGen R a a) (a : α) :
    ¬ TransGen R' a a := by
  intro hcycle
  rcases path_of_added_edge hadd hback hcycle with hpath | ⟨hto, hfrom⟩
  · exact hacyc a hpath
  · exact hback (hfrom.trans hto)

end AddEdge

end Worklist
