import FlowPilot.Lib.Simulation

/-!
# Worlds in parts

A world may consist of parts that are separate but for a common component,
and each call may concern one part. If a system over some other world does
to its image in parts what such a system does (`Divides`), then everything
it reaches is reached there, by the same threads (`Divides.reachable`): a
call sees its part and the common component, and changes no other part.
-/

/-- A common component, and a part for each key. -/
structure Parts (κ γ π : Type) where
  common : γ
  part : κ → π

namespace Parts

variable {κ γ π : Type}

/-- What a call on one part sees. -/
def view (v : Parts κ γ π) (k : κ) : γ × π := (v.common, v.part k)

variable [DecidableEq κ]

/-- The common component and one part are replaced. -/
def put (v : Parts κ γ π) (k : κ) (c : γ × π) : Parts κ γ π :=
  ⟨c.1, Function.update v.part k c.2⟩

/-- Two worlds that differ in one part, and perhaps in the common component. -/
theorem put_view {v v' : Parts κ γ π} {k : κ}
    (h : ∀ other, other ≠ k → v'.part other = v.part other) :
    v.put k (v'.view k) = v' := by
  obtain ⟨common, part⟩ := v'
  refine congrArg (Parts.mk common) (funext fun other => ?_)
  by_cases hother : other = k
  · subst hother
    exact Function.update_self ..
  · exact (Function.update_of_ne hother ..).trans (h other hother).symm

end Parts

namespace Pool

variable {ι σ τ κ γ π Op : Type} {Res : Op → Type} {ε : Type} [DecidableEq ι] [DecidableEq κ]

/-- Calls marked with the part that they are made on. The parts change by
themselves all at once. -/
def partSystem (exec : (op : Op) → γ × π → Reply ε (Res op) → γ × π → Prop)
    (program : τ → Prog (κ × Op) (fun op => Res op.2) ε Unit) (env : γ × π → γ × π → Prop) :
    PoolSystem (Parts κ γ π) τ (κ × Op) (fun op => Res op.2) ε where
  exec op v reply v' := ∃ c, exec op.2 (v.view op.1) reply c ∧ v' = v.put op.1 c
  program := program
  spawn _ v v' := v' = v
  stop _ _ _ _ := False
  env v v' := ∀ k, env (v.view k) (v'.view k)

/-- The calls of a system, in the pools that it reaches, have their effect on
one part of its world, and its world changes part by part. -/
structure Divides (ι : Type) [DecidableEq ι]
    (sys : PoolSystem σ τ (κ × Op) (fun op => Res op.2) ε) (init : σ → Prop)
    (parts : σ → Parts κ γ π) (exec : (op : Op) → γ × π → Reply ε (Res op) → γ × π → Prop)
    (env : γ × π → γ × π → Prop) : Prop where
  spawn : ∀ {info : τ} {w w' : σ}, sys.spawn info w w' → w' = w
  stop : ∀ {info : τ} {h : Prog.History (κ × Op) (fun op => Res op.2) ε} {w w' : σ},
    ¬ sys.stop info h w w'
  env : ∀ {w w' : σ}, sys.env w w' → ∀ k, env ((parts w).view k) ((parts w').view k)
  exec : ∀ {s : Pool ι σ τ (κ × Op) (fun op => Res op.2) ε} {t : ι} {info : τ}
    {h : Prog.History (κ × Op) (fun op => Res op.2) ε} {k : κ} {op : Op}
    {f : Except ε (Res op) → Prog (κ × Op) (fun op => Res op.2) ε Unit}
    {reply : Reply ε (Res op)} {w' : σ},
    Reachable sys init (fun _ _ => True) s →
    s.threads t = some ⟨info, h, .call (k, op) f⟩ → sys.exec (k, op) s.world reply w' →
    exec op ((parts s.world).view k) reply ((parts w').view k)
      ∧ ∀ other, other ≠ k → (parts w').part other = (parts s.world).part other

variable {sys : PoolSystem σ τ (κ × Op) (fun op => Res op.2) ε} {init : σ → Prop}
  {parts : σ → Parts κ γ π} {exec : (op : Op) → γ × π → Reply ε (Res op) → γ × π → Prop}
  {env : γ × π → γ × π → Prop}

theorem Divides.simulates (h : Divides ι sys init parts exec env) :
    Simulates ι sys (partSystem exec sys.program env) init (fun v => ∃ w, init w ∧ v = parts w)
      fun w v => v = parts w where
  program := rfl
  start hw := ⟨_, ⟨_, hw, rfl⟩, rfl⟩
  exec := by
    rintro s v t info hist ⟨k, op⟩ f reply w' hrelated hth hexec
    obtain rfl := hrelated.worlds
    obtain ⟨hpart, hothers⟩ := h.exec hrelated.reached hth hexec
    exact ⟨_, ⟨_, hpart, (Parts.put_view hothers).symm⟩, rfl⟩
  spawn := by
    intro s v info w' hrelated hspawn
    obtain rfl := hrelated.worlds
    obtain rfl := h.spawn hspawn
    exact ⟨_, rfl, rfl⟩
  stop _ _ hstop := (h.stop hstop).elim
  env := by
    intro s v w' hrelated henv
    obtain rfl := hrelated.worlds
    exact Or.inr ⟨_, h.env henv, rfl⟩

/-- What the system reaches is reached part by part. -/
theorem Divides.reachable (h : Divides ι sys init parts exec env)
    {s : Pool ι σ τ (κ × Op) (fun op => Res op.2) ε}
    (hs : Reachable sys init (fun _ _ => True) s) :
    Reachable (partSystem exec sys.program env) (fun v => ∃ w, init w ∧ v = parts w)
      (fun _ _ => True)
      (⟨parts s.world, s.threads⟩ : Pool ι (Parts κ γ π) τ (κ × Op) (fun op => Res op.2) ε) := by
  obtain ⟨v, hv, rfl⟩ := h.simulates.reachable hs
  exact hv

end Pool
