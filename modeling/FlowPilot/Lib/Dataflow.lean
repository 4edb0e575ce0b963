import Mathlib.Data.List.Nodup
import Mathlib.Data.Set.Basic
import Mathlib.Logic.Function.Basic

/-!
# Dataflow networks

Nodes that compute a value from the values of other nodes, or fail to.

`Yields` and `Throws` say what a node comes to, without a schedule: they are
relations, so a network with a cycle just yields nothing along it. `run`
evaluates the nodes one after another and stops at the first failure. On a
`Schedule`, a list in which every node comes after its sources, the two
agree (`run_spec`): what has been computed before the stop is what the nodes
yield, and the node it stops at throws, which excludes that it yields.
-/

/-- What each node reads, and what it makes of it. -/
structure Dataflow (N V E : Type) where
  sources : N → Set N
  step : N → (N → V) → Except E V
  step_congr : ∀ {n : N} {values values' : N → V},
    (∀ m ∈ sources n, values m = values' m) → step n values = step n values'

namespace Dataflow

variable {N V E : Type}

/-! ## What a node comes to -/

/-- The node has a value: its sources have, and its step returns. -/
inductive Yields (net : Dataflow N V E) : N → V → Prop
  | intro {n : N} {v : V} (values : N → V) :
      (∀ m ∈ net.sources n, Yields net m (values m)) → net.step n values = .ok v →
      Yields net n v

variable {net : Dataflow N V E} {n : N} {v v' : V} {e e' : E} {values : N → V}

/-- The values are those of the sources of a node. -/
def Feeds (net : Dataflow N V E) (n : N) (values : N → V) : Prop :=
  ∀ m ∈ net.sources n, net.Yields m (values m)

/-- The sources of the node have values, and its step fails on them. -/
def Throws (net : Dataflow N V E) (n : N) (e : E) : Prop :=
  ∃ values, net.Feeds n values ∧ net.step n values = .error e

theorem Yields.unique (h : net.Yields n v) : ∀ {v' : V}, net.Yields n v' → v = v' := by
  induction h with
  | intro values _ hstep ih =>
      intro v' h'
      cases h' with
      | intro values' hsources' hstep' =>
          have hsame := net.step_congr fun m hm => ih m hm (hsources' m hm)
          exact Except.ok.inj (hstep.symm.trans (hsame.trans hstep'))

/-- All values that feed a node agree as far as it reads them. -/
theorem Feeds.step_eq {values' : N → V} (h : net.Feeds n values) (h' : net.Feeds n values') :
    net.step n values = net.step n values' :=
  net.step_congr fun m hm => (h m hm).unique (h' m hm)

theorem Feeds.yields_iff (h : net.Feeds n values) :
    net.Yields n v ↔ net.step n values = .ok v := by
  constructor
  · rintro ⟨values', h', hstep⟩
    exact (h.step_eq h').trans hstep
  · exact .intro values h

theorem Feeds.throws_iff (h : net.Feeds n values) :
    net.Throws n e ↔ net.step n values = .error e := by
  constructor
  · rintro ⟨values', h', hstep⟩
    exact (h.step_eq h').trans hstep
  · exact fun hstep => ⟨values, h, hstep⟩

/-- A node that fails has no value. -/
theorem Throws.not_yields (h : net.Throws n e) : ¬ net.Yields n v := by
  obtain ⟨values, hfeeds, hstep⟩ := h
  intro hyields
  cases hstep.symm.trans (hfeeds.yields_iff.mp hyields)

theorem Throws.unique (h : net.Throws n e) (h' : net.Throws n e') : e = e' := by
  obtain ⟨values, hfeeds, hstep⟩ := h
  exact Except.error.inj (hstep.symm.trans (hfeeds.throws_iff.mp h'))

/-! ## One after another -/

/-- The values of these nodes have been computed. -/
def Settled (net : Dataflow N V E) (done : List N) (values : N → V) : Prop :=
  ∀ m ∈ done, net.Yields m (values m)

/-- Every node comes once, and after its sources. -/
structure Schedule (net : Dataflow N V E) (order : List N) : Prop where
  nodup : order.Nodup
  sources_before : ∀ {before after : List N} {n : N}, order = before ++ n :: after →
    ∀ m ∈ net.sources n, m ∈ before

/-- The next node of a schedule is fed by what has been computed. -/
theorem Settled.feeds {order before after : List N} (horder : net.Schedule order)
    (hsplit : order = before ++ n :: after) (h : net.Settled before values) :
    net.Feeds n values :=
  fun m hm => h m (horder.sources_before hsplit m hm)

theorem Schedule.notMem_before {order before after : List N} (horder : net.Schedule order)
    (hsplit : order = before ++ n :: after) : n ∉ before := by
  have hnodup := horder.nodup
  rw [hsplit, List.nodup_append'] at hnodup
  exact fun hmem => hnodup.2.2 hmem List.mem_cons_self

/-- A node stands at one place of a schedule. -/
theorem Schedule.split_unique {order before before' after after' : List N}
    (horder : net.Schedule order) (hsplit : order = before ++ n :: after)
    (hsplit' : order = before' ++ n :: after') : before = before' := by
  have hafter : n ∉ after' := by
    have hnodup := horder.nodup
    rw [hsplit', List.nodup_append'] at hnodup
    exact (List.nodup_cons.mp hnodup.2.1).1
  exact ((List.append_cons_inj_of_notMem (horder.notMem_before hsplit') hafter).mp
    (hsplit'.symm.trans hsplit)).1.symm

variable [DecidableEq N]

/-- Evaluate the nodes in turn, up to the first that fails. -/
def run (net : Dataflow N V E) : List N → (N → V) → (N → V) × Option (N × E)
  | [], values => (values, none)
  | n :: nodes, values =>
      match net.step n values with
      | .ok v => run net nodes (Function.update values n v)
      | .error e => (values, some (n, e))

theorem run_cons {nodes : List N} (hstep : net.step n values = .ok v) :
    net.run (n :: nodes) values = net.run nodes (Function.update values n v) := by
  simp only [run, hstep]

/-- One step. -/
theorem Settled.next {order before after : List N} (horder : net.Schedule order)
    (hsplit : order = before ++ n :: after) (h : net.Settled before values)
    (hv : net.Yields n v) : net.Settled (before ++ [n]) (Function.update values n v) := by
  intro m hm
  rcases List.mem_append.mp hm with hbefore | hlast
  · have hne : m ≠ n := fun he => horder.notMem_before hsplit (he ▸ hbefore)
    rw [Function.update_of_ne hne]
    exact h m hbefore
  · obtain rfl := List.mem_singleton.mp hlast
    rw [Function.update_self]
    exact hv

/-- What a run of the rest of a schedule comes to. -/
theorem run_spec {order : List N} (horder : net.Schedule order) :
    ∀ {nodes before : List N} {values : N → V}, order = before ++ nodes →
      net.Settled before values →
      ((net.run nodes values).2 = none ∧ net.Settled order (net.run nodes values).1)
      ∨ ∃ first n rest e, (net.run nodes values).2 = some (n, e) ∧ nodes = first ++ n :: rest
        ∧ net.Settled (before ++ first) (net.run nodes values).1 ∧ net.Throws n e
  | [], before, values, hsplit, h => by
      refine Or.inl ⟨rfl, ?_⟩
      rw [hsplit, List.append_nil]
      exact h
  | n :: nodes, before, values, hsplit, h => by
      have hfeeds := h.feeds horder hsplit
      cases hstep : net.step n values with
      | error e =>
          refine Or.inr ⟨[], n, nodes, e, ?_, rfl, ?_, hfeeds.throws_iff.mpr hstep⟩
          · simp only [run, hstep]
          · simpa only [run, hstep, List.append_nil] using h
      | ok v =>
          have hnext := h.next horder hsplit (hfeeds.yields_iff.mpr hstep)
          rw [run_cons hstep]
          rcases run_spec horder (by simpa using hsplit) hnext with
            hall | ⟨first, m, rest, e, hfailed, rfl, hsettled, hthrows⟩
          · exact Or.inl hall
          · exact Or.inr ⟨n :: first, m, rest, e, hfailed, rfl, by simpa using hsettled, hthrows⟩

end Dataflow
