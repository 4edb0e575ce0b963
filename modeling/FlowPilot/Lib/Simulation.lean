import FlowPilot.Lib.Pool

/-!
# Simulations of pools

Two systems that run the same programs over different worlds. If every effect
on the first world is one on the second, up to a relation of the worlds, then
a pool that the first system reaches is reached by the second with the very
same threads (`Simulates.reachable`). Steps of the first world itself may be
invisible in the second.

Each step may use that both pools are reachable.
-/

namespace Pool

variable {ι σ σ' τ Op : Type} {Res : Op → Type} {ε : Type} [DecidableEq ι]

/-- The pool, and the second world with the same threads, are reached, and
the worlds are related. -/
structure Related (sys : PoolSystem σ τ Op Res ε) (sys' : PoolSystem σ' τ Op Res ε)
    (init : σ → Prop) (init' : σ' → Prop) (R : σ → σ' → Prop) (s : Pool ι σ τ Op Res ε) (v : σ') :
    Prop where
  reached : Reachable sys init (fun _ _ => True) s
  reached' : Reachable sys' init' (fun _ _ => True) (⟨v, s.threads⟩ : Pool ι σ' τ Op Res ε)
  worlds : R s.world v

structure Simulates (ι : Type) [DecidableEq ι] (sys : PoolSystem σ τ Op Res ε)
    (sys' : PoolSystem σ' τ Op Res ε) (init : σ → Prop) (init' : σ' → Prop) (R : σ → σ' → Prop) :
    Prop where
  program : sys.program = sys'.program
  start : ∀ {w : σ}, init w → ∃ v, init' v ∧ R w v
  exec : ∀ {s : Pool ι σ τ Op Res ε} {v : σ'} {t : ι} {info : τ} {h : Prog.History Op Res ε}
    {op : Op} {k : Except ε (Res op) → Prog Op Res ε Unit} {reply : Reply ε (Res op)} {w : σ},
    Related sys sys' init init' R s v → s.threads t = some ⟨info, h, .call op k⟩ →
    sys.exec op s.world reply w → ∃ v', sys'.exec op v reply v' ∧ R w v'
  spawn : ∀ {s : Pool ι σ τ Op Res ε} {v : σ'} {info : τ} {w : σ},
    Related sys sys' init init' R s v → sys.spawn info s.world w →
    ∃ v', sys'.spawn info v v' ∧ R w v'
  stop : ∀ {s : Pool ι σ τ Op Res ε} {v : σ'} {t : ι} {th : Thread τ Op Res ε} {w : σ},
    Related sys sys' init init' R s v → s.threads t = some th →
    sys.stop th.info th.history s.world w → ∃ v', sys'.stop th.info th.history v v' ∧ R w v'
  env : ∀ {s : Pool ι σ τ Op Res ε} {v : σ'} {w : σ},
    Related sys sys' init init' R s v → sys.env s.world w →
    R w v ∨ ∃ v', sys'.env v v' ∧ R w v'

/-- What the first system reaches, the second reaches. -/
theorem Simulates.reachable {sys : PoolSystem σ τ Op Res ε} {sys' : PoolSystem σ' τ Op Res ε}
    {init : σ → Prop} {init' : σ' → Prop} {R : σ → σ' → Prop}
    (h : Simulates ι sys sys' init init' R) {s : Pool ι σ τ Op Res ε}
    (hs : Reachable sys init (fun _ _ => True) s) :
    ∃ v, Reachable sys' init' (fun _ _ => True) (⟨v, s.threads⟩ : Pool ι σ' τ Op Res ε)
      ∧ R s.world v := by
  induction hs with
  | start hw =>
      obtain ⟨v, hv, hR⟩ := h.start hw
      exact ⟨v, .start hv, hR⟩
  | step hs _ hstep ih =>
      obtain ⟨v, hv, hR⟩ := ih
      have hrelated := Related.mk hs hv hR
      cases hstep with
      | act hth hexec =>
          obtain ⟨v', hexec', hR'⟩ := h.exec hrelated hth hexec
          exact ⟨v', .step hv trivial (.act hth hexec'), hR'⟩
      | @spawn w w' threads t info hnone hspawn =>
          obtain ⟨v', hspawn', hR'⟩ := h.spawn hrelated hspawn
          refine ⟨v', ?_, hR'⟩
          rw [h.program]
          exact .step hv trivial (.spawn hnone hspawn')
      | stop hth hstop =>
          obtain ⟨v', hstop', hR'⟩ := h.stop hrelated hth hstop
          exact ⟨v', .step hv trivial (.stop hth hstop'), hR'⟩
      | env henv =>
          rcases h.env hrelated henv with hsame | ⟨v', henv', hR'⟩
          · exact ⟨v, hv, hsame⟩
          · exact ⟨v', .step hv trivial (.env henv'), hR'⟩

end Pool
