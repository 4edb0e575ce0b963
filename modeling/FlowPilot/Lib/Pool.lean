import FlowPilot.Lib.Run
import Mathlib.Logic.Function.Basic

/-!
# Pools of programs over a shared world

Any number of programs (`Prog`) over one shared world, interleaved call by
call. A pool may start a thread, run one call of a thread, stop a thread
between two calls (a crash), or let the world change by itself. `Reachable`
collects the pools of all runs whose steps meet a side condition; the side
condition `fun _ _ => True` allows every run. `play` computes a run from a
schedule.

The proof rule is `Reachable.invariant`. It splits the work in two: what
each program does on its own, stated as a weakest precondition under an
assumption on replies (`Discipline`), and an invariant of the whole pool
that every step keeps, where a step may use that the thread it runs keeps
to the discipline.
-/

open Prog (History Along)

variable {ι σ τ Op : Type} {Res : Op → Type} {ε : Type}

/-- A thread: what it was started for, what it has done, and what is left of
its program. -/
structure Thread (τ Op : Type) (Res : Op → Type) (ε : Type) where
  info : τ
  history : History Op Res ε
  prog : Prog Op Res ε Unit

/-- The shared world and the threads running over it. -/
structure Pool (ι σ τ Op : Type) (Res : Op → Type) (ε : Type) where
  world : σ
  threads : ι → Option (Thread τ Op Res ε)

/-- What a pool is made of: the effect of a call on the world, the program
of a thread, what starting and stopping a thread does to the world, and the
steps of the world itself. -/
structure PoolSystem (σ τ Op : Type) (Res : Op → Type) (ε : Type) where
  exec : (op : Op) → σ → Reply ε (Res op) → σ → Prop
  program : τ → Prog Op Res ε Unit
  spawn : τ → σ → σ → Prop
  stop : τ → History Op Res ε → σ → σ → Prop
  env : σ → σ → Prop

namespace Pool

inductive Label (ι τ Op : Type) (Res : Op → Type) (ε : Type) where
  | act (t : ι) (ev : Event Op Res ε)
  | spawn (t : ι) (info : τ)
  | stop (t : ι)
  | env

section Semantics

variable [DecidableEq ι] (sys : PoolSystem σ τ Op Res ε)

inductive Step : Pool ι σ τ Op Res ε → Label ι τ Op Res ε → Pool ι σ τ Op Res ε → Prop
  | act {w w' : σ} {threads : ι → Option (Thread τ Op Res ε)} {t : ι} {info : τ}
      {h : History Op Res ε} {op : Op} {k : Except ε (Res op) → Prog Op Res ε Unit}
      {reply : Reply ε (Res op)} :
      threads t = some ⟨info, h, .call op k⟩ → sys.exec op w reply w' →
      Step ⟨w, threads⟩ (.act t ⟨op, reply⟩)
        ⟨w', Function.update threads t (some ⟨info, h ++ [⟨op, reply⟩], k reply.result⟩)⟩
  | spawn {w w' : σ} {threads : ι → Option (Thread τ Op Res ε)} {t : ι} {info : τ} :
      threads t = none → sys.spawn info w w' →
      Step ⟨w, threads⟩ (.spawn t info)
        ⟨w', Function.update threads t (some ⟨info, [], sys.program info⟩)⟩
  | stop {w w' : σ} {threads : ι → Option (Thread τ Op Res ε)} {t : ι}
      {th : Thread τ Op Res ε} :
      threads t = some th → sys.stop th.info th.history w w' →
      Step ⟨w, threads⟩ (.stop t) ⟨w', Function.update threads t none⟩
  | env {w w' : σ} {threads : ι → Option (Thread τ Op Res ε)} :
      sys.env w w' → Step ⟨w, threads⟩ .env ⟨w', threads⟩

/-- A thread after a step: it was there before, has just started, or made
the call of the step. -/
theorem Step.thread_cases {sys : PoolSystem σ τ Op Res ε} {s s' : Pool ι σ τ Op Res ε}
    {l : Label ι τ Op Res ε} (hs : Step sys s l s') {t : ι} {th : Thread τ Op Res ε}
    (hth : s'.threads t = some th) :
    s.threads t = some th
    ∨ (∃ info, l = .spawn t info ∧ sys.spawn info s.world s'.world
      ∧ th = ⟨info, [], sys.program info⟩)
    ∨ ∃ info h op k reply, l = .act t ⟨op, reply⟩ ∧ s.threads t = some ⟨info, h, .call op k⟩
      ∧ sys.exec op s.world reply s'.world
      ∧ th = ⟨info, h ++ [⟨op, reply⟩], k reply.result⟩ := by
  cases hs with
  | @act w w' threads t' info h op k reply hcall hexec =>
      by_cases ht : t = t'
      · subst ht
        simp only [Function.update_self] at hth
        exact Or.inr (Or.inr ⟨info, h, op, k, reply, rfl, hcall, hexec,
          (Option.some.inj hth).symm⟩)
      · exact Or.inl (by simpa [ht] using hth)
  | @spawn w w' threads t' info hnone hspawn =>
      by_cases ht : t = t'
      · subst ht
        simp only [Function.update_self] at hth
        exact Or.inr (Or.inl ⟨info, rfl, hspawn, (Option.some.inj hth).symm⟩)
      · exact Or.inl (by simpa [ht] using hth)
  | @stop w w' threads t' th' hth' hstop =>
      by_cases ht : t = t'
      · subst ht
        simp at hth
      · exact Or.inl (by simpa [ht] using hth)
  | env _ => exact Or.inl hth

/-- What a step does to a thread: nothing, or it stops it, or the thread
makes the call of the step. -/
theorem Step.keeps_thread {sys : PoolSystem σ τ Op Res ε} {s s' : Pool ι σ τ Op Res ε}
    {l : Label ι τ Op Res ε} (hs : Step sys s l s') {t : ι} {th : Thread τ Op Res ε}
    (hth : s.threads t = some th) :
    s'.threads t = some th
    ∨ (l = .stop t ∧ sys.stop th.info th.history s.world s'.world)
    ∨ ∃ op k reply, l = .act t ⟨op, reply⟩ ∧ th.prog = .call op k
      ∧ sys.exec op s.world reply s'.world
      ∧ s'.threads t = some ⟨th.info, th.history ++ [⟨op, reply⟩], k reply.result⟩ := by
  cases hs with
  | @act w w' threads t' info h op k reply hcall hexec =>
      by_cases ht : t = t'
      · subst ht
        obtain rfl := Option.some.inj (hcall.symm.trans hth)
        exact Or.inr (Or.inr ⟨op, k, reply, rfl, rfl, hexec, by simp⟩)
      · exact Or.inl (by simpa [ht] using hth)
  | @spawn w w' threads t' info hnone hspawn =>
      have ht : t ≠ t' := by
        rintro rfl
        cases hnone.symm.trans hth
      exact Or.inl (by simpa [ht] using hth)
  | @stop w w' threads t' th' hth' hstop =>
      by_cases ht : t = t'
      · subst ht
        obtain rfl := Option.some.inj (hth'.symm.trans hth)
        exact Or.inr (Or.inl ⟨rfl, hstop⟩)
      · exact Or.inl (by simpa [ht] using hth)
  | env _ => exact Or.inl hth

/-- The thread that makes the call of a step. -/
theorem Step.act_cases {sys : PoolSystem σ τ Op Res ε} {s s' : Pool ι σ τ Op Res ε} {t : ι}
    {op : Op} {reply : Reply ε (Res op)} (hs : Step sys s (.act t ⟨op, reply⟩) s') :
    ∃ info h k, s.threads t = some ⟨info, h, .call op k⟩
      ∧ sys.exec op s.world reply s'.world
      ∧ s'.threads = Function.update s.threads t
        (some ⟨info, h ++ [⟨op, reply⟩], k reply.result⟩) := by
  cases hs with
  | act hth hexec => exact ⟨_, _, _, hth, hexec, rfl⟩

/-- The thread that makes a call does not stay as it was. -/
theorem Step.threads_ne {sys : PoolSystem σ τ Op Res ε} {s s' : Pool ι σ τ Op Res ε} {t : ι}
    {ev : Event Op Res ε} (hs : Step sys s (.act t ev) s') : s'.threads t ≠ s.threads t := by
  obtain ⟨op, reply⟩ := ev
  obtain ⟨info, h, k, hth, -, hthreads⟩ := hs.act_cases
  rw [hthreads, hth, Function.update_self]
  simp

/-- The pools reached from a start state without threads, by steps that meet
the side condition `C`. -/
inductive Reachable (init : σ → Prop)
    (C : Pool ι σ τ Op Res ε → Label ι τ Op Res ε → Prop) : Pool ι σ τ Op Res ε → Prop
  | start {w : σ} : init w → Reachable init C ⟨w, fun _ => none⟩
  | step {s s' : Pool ι σ τ Op Res ε} {l : Label ι τ Op Res ε} :
      Reachable init C s → C s l → Step sys s l s' → Reachable init C s'

/-- A run that meets a side condition meets every weaker one. -/
theorem Reachable.mono {sys : PoolSystem σ τ Op Res ε} {init : σ → Prop}
    {C C' : Pool ι σ τ Op Res ε → Label ι τ Op Res ε → Prop}
    (hC : ∀ s l, Reachable sys init C s → C s l → C' s l) {s : Pool ι σ τ Op Res ε}
    (h : Reachable sys init C s) : Reachable sys init C' s := by
  induction h with
  | start hinit => exact .start hinit
  | step hreach hc hstep ih => exact .step ih (hC _ _ hreach hc) hstep

/-- A run from `s` by steps that meet `C`, with the labels of its steps. -/
inductive Run (C : Pool ι σ τ Op Res ε → Label ι τ Op Res ε → Prop)
    (s : Pool ι σ τ Op Res ε) : List (Label ι τ Op Res ε) → Pool ι σ τ Op Res ε → Prop
  | refl : Run C s [] s
  | step {s' s'' : Pool ι σ τ Op Res ε} {labels : List (Label ι τ Op Res ε)}
      {l : Label ι τ Op Res ε} :
      Run C s labels s' → C s' l → Step sys s' l s'' → Run C s (labels ++ [l]) s''

/-- A run meets every side condition that its labels meet in all states. -/
theorem Run.of_labels {sys : PoolSystem σ τ Op Res ε}
    {C C' : Pool ι σ τ Op Res ε → Label ι τ Op Res ε → Prop} {s s' : Pool ι σ τ Op Res ε}
    {labels : List (Label ι τ Op Res ε)} (hrun : Run sys C s labels s')
    (hC : ∀ l ∈ labels, ∀ s, C' s l) : Run sys C' s labels s' := by
  induction hrun with
  | refl => exact .refl
  | step _ _ hs ih =>
      exact .step (ih fun l hl => hC l (List.mem_append_left _ hl))
        (hC _ (List.mem_append_right _ (List.mem_singleton_self _)) _) hs

theorem Run.trans {sys : PoolSystem σ τ Op Res ε}
    {C : Pool ι σ τ Op Res ε → Label ι τ Op Res ε → Prop} {s s₁ s₂ : Pool ι σ τ Op Res ε}
    {first rest : List (Label ι τ Op Res ε)} (hfirst : Run sys C s first s₁)
    (hrest : Run sys C s₁ rest s₂) : Run sys C s (first ++ rest) s₂ := by
  induction hrest with
  | refl => simpa using hfirst
  | step _ hc hs ih =>
      rw [← List.append_assoc]
      exact .step ih hc hs

/-- A run from a reachable pool leads to a reachable pool. -/
theorem Run.reachable {sys : PoolSystem σ τ Op Res ε} {init : σ → Prop}
    {C : Pool ι σ τ Op Res ε → Label ι τ Op Res ε → Prop} {s s' : Pool ι σ τ Op Res ε}
    {labels : List (Label ι τ Op Res ε)} (hrun : Run sys C s labels s')
    (h : Reachable sys init C s) : Reachable sys init C s' := by
  induction hrun with
  | refl => exact h
  | step _ hc hs ih => exact .step ih hc hs

/-- A run from a reachable pool that meets a side condition meets every
weaker one. -/
theorem Run.mono {sys : PoolSystem σ τ Op Res ε} {init : σ → Prop}
    {C C' : Pool ι σ τ Op Res ε → Label ι τ Op Res ε → Prop} {s s' : Pool ι σ τ Op Res ε}
    {labels : List (Label ι τ Op Res ε)} (hs : Reachable sys init C s)
    (hC : ∀ s l, Reachable sys init C s → C s l → C' s l) (hrun : Run sys C s labels s') :
    Run sys C' s labels s' := by
  induction hrun with
  | refl => exact .refl
  | step hearlier hc hstep ih => exact .step ih (hC _ _ (hearlier.reachable hs) hc) hstep

/-- A run meets a further side condition, or one of its steps does not. -/
theorem Run.meets_or_exists {sys : PoolSystem σ τ Op Res ε}
    {C : Pool ι σ τ Op Res ε → Label ι τ Op Res ε → Prop}
    (C' : Pool ι σ τ Op Res ε → Label ι τ Op Res ε → Prop) {s s' : Pool ι σ τ Op Res ε}
    {labels : List (Label ι τ Op Res ε)} (hrun : Run sys C s labels s') :
    Run sys (fun s l => C s l ∧ C' s l) s labels s'
      ∨ ∃ first l rest s₁ s₂, labels = first ++ l :: rest ∧ Run sys C s first s₁
        ∧ Step sys s₁ l s₂ ∧ Run sys C s₂ rest s' ∧ ¬ C' s₁ l := by
  induction hrun with
  | refl => exact Or.inl .refl
  | @step s' s'' labels l hearlier hc hs ih =>
      rcases ih with hmeets | ⟨first, l', rest, s₁, s₂, rfl, hfirst, hstep, hrest, hnot⟩
      · by_cases hc' : C' s' l
        · exact Or.inl (.step hmeets ⟨hc, hc'⟩ hs)
        · exact Or.inr ⟨labels, l, [], s', s'', rfl, hearlier, hs, .refl, hc'⟩
      · exact Or.inr ⟨first, l', rest ++ [l], s₁, s₂, by simp, hfirst, hstep,
          .step hrest hc hs, hnot⟩

/-- A reachable pool is reached by a run. -/
theorem Reachable.exists_run {sys : PoolSystem σ τ Op Res ε} {init : σ → Prop}
    {C : Pool ι σ τ Op Res ε → Label ι τ Op Res ε → Prop} {s : Pool ι σ τ Op Res ε}
    (h : Reachable sys init C s) :
    ∃ w labels, init w ∧ Run sys C ⟨w, fun _ => none⟩ labels s := by
  induction h with
  | start hw => exact ⟨_, [], hw, .refl⟩
  | step _ hc hs ih =>
      obtain ⟨w, labels, hw, hrun⟩ := ih
      exact ⟨w, labels ++ [_], hw, .step hrun hc hs⟩

theorem Run.eq_of_nil {sys : PoolSystem σ τ Op Res ε}
    {C : Pool ι σ τ Op Res ε → Label ι τ Op Res ε → Prop} {s s' : Pool ι σ τ Op Res ε}
    (hrun : Run sys C s [] s') : s' = s := by
  generalize hlabels : ([] : List (Label ι τ Op Res ε)) = labels at hrun
  cases hrun with
  | refl => rfl
  | step _ _ _ => simp at hlabels

/-- A run of one step at most meets the side conditions that its label meets
in the first state. -/
theorem Run.of_short {sys : PoolSystem σ τ Op Res ε}
    {C C' : Pool ι σ τ Op Res ε → Label ι τ Op Res ε → Prop} {s s' : Pool ι σ τ Op Res ε}
    {labels : List (Label ι τ Op Res ε)} (hrun : Run sys C s labels s')
    (hshort : labels.length ≤ 1) (hC : ∀ l ∈ labels, C' s l) : Run sys C' s labels s' := by
  cases hrun with
  | refl => exact .refl
  | @step s₁ _ labels l hearlier _ hs =>
    obtain rfl : labels = [] := by simpa using hshort
    obtain rfl := hearlier.eq_of_nil
    exact .step .refl (hC l (List.mem_append_right _ (List.mem_singleton_self _))) hs

/-- A thread runs for a while, alone; its calls meet the side condition as long
as the other threads stay where they are. -/
theorem Run.after {sys : PoolSystem σ τ Op Res ε}
    {C : Pool ι σ τ Op Res ε → Label ι τ Op Res ε → Prop} {t : ι} {info : τ}
    {p q : Prog Op Res ε Unit} {events : List (Event Op Res ε)} (hp : Prog.After p events q) :
    ∀ {s : Pool ι σ τ Op Res ε} {h : History Op Res ε} {w' : σ},
      s.threads t = some ⟨info, h, p⟩ → Prog.Replays sys.exec s.world events w' →
      (∀ s', (∀ t', t' ≠ t → s'.threads t' = s.threads t') → ∀ ev ∈ events, C s' (.act t ev)) →
      Run sys C s (events.map (.act t))
        ⟨w', Function.update s.threads t (some ⟨info, h ++ events, q⟩)⟩ := by
  induction hp with
  | refl p =>
      intro s h w' hth hreplays hC
      obtain rfl : s.world = w' := hreplays
      rw [List.append_nil, ← hth, Function.update_eq_self]
      exact .refl
  | @call op k reply events q _ ih =>
      intro s h w' hth hreplays hC
      obtain ⟨w₁, hexec, hrest⟩ := hreplays
      have hfirst : Run sys C s ([] ++ [.act t ⟨op, reply⟩]) ⟨w₁, Function.update s.threads t
          (some ⟨info, h ++ [⟨op, reply⟩], k reply.result⟩)⟩ :=
        .step .refl (hC s (fun _ _ => rfl) _ List.mem_cons_self) (.act hth hexec)
      have hdone := hfirst.trans (ih (Function.update_self ..) hrest fun s' hothers ev hev =>
        hC s' (fun t' ht => (hothers t' ht).trans (Function.update_of_ne ht ..)) ev
          (List.mem_cons_of_mem _ hev))
      simpa using hdone

/-! ### Runs by a schedule -/

/-- One entry of a schedule: it starts a thread, or runs one call of it, the
`i`-th entry's call answered by the oracle. -/
def playEntry (program : τ → Prog Op Res ε Unit)
    (answer : Nat → (op : Op) → σ → Option (Reply ε (Res op) × σ)) (i : Nat) :
    ι × Option τ → Pool ι σ τ Op Res ε → Option (Label ι τ Op Res ε × Pool ι σ τ Op Res ε)
  | (t, some info), s =>
      match s.threads t with
      | some _ => none
      | none => some (.spawn t info,
          ⟨s.world, Function.update s.threads t (some ⟨info, [], program info⟩)⟩)
  | (t, none), s =>
      match s.threads t with
      | some ⟨info, h, .call op k⟩ =>
          match answer i op s.world with
          | none => none
          | some (reply, w') => some (.act t ⟨op, reply⟩,
              ⟨w', Function.update s.threads t (some ⟨info, h ++ [⟨op, reply⟩], k reply.result⟩)⟩)
      | _ => none

/-- Follow a schedule: the labels of the steps, and where they lead. -/
def playLabels (program : τ → Prog Op Res ε Unit)
    (answer : Nat → (op : Op) → σ → Option (Reply ε (Res op) × σ)) :
    Nat → List (ι × Option τ) → Pool ι σ τ Op Res ε →
      Option (List (Label ι τ Op Res ε) × Pool ι σ τ Op Res ε)
  | _, [], s => some ([], s)
  | i, entry :: schedule, s =>
      (playEntry program answer i entry s).bind fun (l, s₁) =>
        (playLabels program answer (i + 1) schedule s₁).map fun (labels, s') => (l :: labels, s')

/-- Where a schedule leads. -/
def play (program : τ → Prog Op Res ε Unit)
    (answer : Nat → (op : Op) → σ → Option (Reply ε (Res op) × σ)) (i : Nat)
    (schedule : List (ι × Option τ)) (s : Pool ι σ τ Op Res ε) : Option (Pool ι σ τ Op Res ε) :=
  (playLabels program answer i schedule s).map (·.2)

section Play

variable {sys : PoolSystem σ τ Op Res ε} {C : Pool ι σ τ Op Res ε → Label ι τ Op Res ε → Prop}
  {answer : Nat → (op : Op) → σ → Option (Reply ε (Res op) × σ)} {s s' : Pool ι σ τ Op Res ε}

/-- What an entry does. -/
theorem playEntry_cases {program : τ → Prog Op Res ε Unit} {i : Nat} {entry : ι × Option τ}
    {l : Label ι τ Op Res ε} (h : playEntry program answer i entry s = some (l, s')) :
    (∃ t info, entry = (t, some info) ∧ l = .spawn t info ∧ s.threads t = none
      ∧ s' = ⟨s.world, Function.update s.threads t (some ⟨info, [], program info⟩)⟩)
    ∨ ∃ t info h op k reply w', entry = (t, none) ∧ l = .act t ⟨op, reply⟩
      ∧ s.threads t = some ⟨info, h, .call op k⟩ ∧ answer i op s.world = some (reply, w')
      ∧ s' = ⟨w', Function.update s.threads t
          (some ⟨info, h ++ [⟨op, reply⟩], k reply.result⟩)⟩ := by
  obtain ⟨t, _ | info⟩ := entry
  · unfold playEntry at h
    dsimp only at h
    split at h
    · rename_i info hist op k hth
      cases hreply : answer i op s.world with
      | none =>
          rw [hreply] at h
          cases h
      | some result =>
          rw [hreply] at h
          cases h
          exact Or.inr ⟨t, info, hist, op, k, _, _, rfl, rfl, hth, hreply, rfl⟩
    · cases h
  · unfold playEntry at h
    dsimp only at h
    split at h
    · cases h
    · rename_i hth
      cases h
      exact Or.inl ⟨t, info, rfl, rfl, hth, rfl⟩

/-- What a schedule leads through is a run, by steps that meet a side
condition if what is started and what the oracle answers do. -/
theorem Run.playLabels (hspawn : ∀ info w, sys.spawn info w w)
    (hanswer : ∀ i op w reply w', answer i op w = some (reply, w') → sys.exec op w reply w')
    (hCact : ∀ s t i op reply w', answer i op s.world = some (reply, w') →
      C s (.act t ⟨op, reply⟩)) :
    ∀ {schedule : List (ι × Option τ)} {i : Nat} {s s' : Pool ι σ τ Op Res ε}
      {labels : List (Label ι τ Op Res ε)},
      Pool.playLabels sys.program answer i schedule s = some (labels, s') →
      (∀ s t info, (t, some info) ∈ schedule → C s (.spawn t info)) → Run sys C s labels s'
  | [], _, _, _, _, h, _ => by
      cases h
      exact .refl
  | entry :: schedule, i, s, s', _, h, hCspawn => by
      obtain ⟨⟨l, s₁⟩, hentry, h⟩ := Option.bind_eq_some_iff.mp h
      obtain ⟨⟨labels, s₂⟩, hrest, heq⟩ := Option.map_eq_some_iff.mp h
      cases heq
      have hfirst : Run sys C s ([] ++ [l]) s₁ := by
        rcases playEntry_cases hentry with
          ⟨t, info, rfl, rfl, hth, rfl⟩ | ⟨t, info, h, op, k, reply, w', -, rfl, hth, hreply, rfl⟩
        · exact .step .refl (hCspawn s t info List.mem_cons_self) (.spawn hth (hspawn _ _))
        · exact .step .refl (hCact s t i op reply w' hreply) (.act hth (hanswer _ _ _ _ _ hreply))
      exact hfirst.trans (Run.playLabels hspawn hanswer hCact hrest
        fun s t info hinfo => hCspawn s t info (List.mem_cons_of_mem _ hinfo))

theorem Reachable.play {init : σ → Prop} (hspawn : ∀ info w, sys.spawn info w w)
    (hanswer : ∀ i op w reply w', answer i op w = some (reply, w') → sys.exec op w reply w')
    (hCact : ∀ s t i op reply w', answer i op s.world = some (reply, w') →
      C s (.act t ⟨op, reply⟩)) {schedule : List (ι × Option τ)} {i : Nat}
    (h : Pool.play sys.program answer i schedule s = some s')
    (hCspawn : ∀ s t info, (t, some info) ∈ schedule → C s (.spawn t info))
    (hs : Reachable sys init C s) : Reachable sys init C s' := by
  obtain ⟨⟨labels, s₁⟩, hlabels, rfl⟩ := Option.map_eq_some_iff.mp h
  exact (Run.playLabels hspawn hanswer hCact hlabels hCspawn).reachable hs

end Play

/-! ### Who added what -/

/-- A run from `s`, with what the calls of each thread have added to the
world. -/
inductive Ledger {β : Type} (C : Pool ι σ τ Op Res ε → Label ι τ Op Res ε → Prop)
    (adds : σ → σ → List β → Prop) (s : Pool ι σ τ Op Res ε) :
    Pool ι σ τ Op Res ε → (ι → List β) → Prop
  | refl : Ledger C adds s s fun _ => []
  | act {s' s'' : Pool ι σ τ Op Res ε} {book : ι → List β} {t : ι} {ev : Event Op Res ε}
      {added : List β} :
      Ledger C adds s s' book → C s' (.act t ev) → Step sys s' (.act t ev) s'' →
      adds s'.world s''.world added →
      Ledger C adds s s'' (Function.update book t (book t ++ added))
  | other {s' s'' : Pool ι σ τ Op Res ε} {book : ι → List β} {l : Label ι τ Op Res ε} :
      Ledger C adds s s' book → C s' l → Step sys s' l s'' → (∀ t ev, l ≠ .act t ev) →
      Ledger C adds s s'' book

theorem Ledger.reachable {sys : PoolSystem σ τ Op Res ε} {init : σ → Prop} {β : Type}
    {C : Pool ι σ τ Op Res ε → Label ι τ Op Res ε → Prop} {adds : σ → σ → List β → Prop}
    {s s' : Pool ι σ τ Op Res ε} {book : ι → List β} (h : Ledger sys C adds s s' book)
    (hs : Reachable sys init C s) : Reachable sys init C s' := by
  induction h with
  | refl => exact hs
  | act _ hc hstep _ ih => exact .step ih hc hstep
  | other _ hc hstep _ ih => exact .step ih hc hstep

/-- Every run has a ledger, when every call adds something or nothing. -/
theorem Run.exists_ledger {sys : PoolSystem σ τ Op Res ε} {β : Type}
    {C : Pool ι σ τ Op Res ε → Label ι τ Op Res ε → Prop} {adds : σ → σ → List β → Prop}
    (hadds : ∀ op w reply w', sys.exec op w reply w' → ∃ added, adds w w' added)
    {s s' : Pool ι σ τ Op Res ε} {labels : List (Label ι τ Op Res ε)}
    (hrun : Run sys C s labels s') : ∃ book, Ledger sys C adds s s' book := by
  induction hrun with
  | refl => exact ⟨_, .refl⟩
  | @step s' s'' labels l _ hc hstep ih =>
      obtain ⟨book, hledger⟩ := ih
      cases l with
      | act t ev =>
          obtain ⟨_, _, _, -, hexec, -⟩ := hstep.act_cases
          obtain ⟨added, hadded⟩ := hadds _ _ _ _ hexec
          exact ⟨_, .act hledger hc hstep hadded⟩
      | _ => exact ⟨_, .other hledger hc hstep fun _ _ => by simp⟩

/-! ### What an observer notes -/

/-- A run from `s`, with what an observer notes of its steps: at most one
thing of each. -/
inductive Observed {β : Type} (C : Pool ι σ τ Op Res ε → Label ι τ Op Res ε → Prop)
    (notes : Pool ι σ τ Op Res ε → Label ι τ Op Res ε → Pool ι σ τ Op Res ε → β → Prop)
    (s : Pool ι σ τ Op Res ε) :
    Pool ι σ τ Op Res ε → List (Label ι τ Op Res ε) → List β → Prop
  | refl : Observed C notes s s [] []
  | noted {s' s'' : Pool ι σ τ Op Res ε} {labels : List (Label ι τ Op Res ε)} {log : List β}
      {l : Label ι τ Op Res ε} {b : β} :
      Observed C notes s s' labels log → C s' l → Step sys s' l s'' → notes s' l s'' b →
      Observed C notes s s'' (labels ++ [l]) (log ++ [b])
  | silent {s' s'' : Pool ι σ τ Op Res ε} {labels : List (Label ι τ Op Res ε)} {log : List β}
      {l : Label ι τ Op Res ε} :
      Observed C notes s s' labels log → C s' l → Step sys s' l s'' → (∀ b, ¬ notes s' l s'' b) →
      Observed C notes s s'' (labels ++ [l]) log

theorem Observed.run {sys : PoolSystem σ τ Op Res ε} {β : Type}
    {C : Pool ι σ τ Op Res ε → Label ι τ Op Res ε → Prop}
    {notes : Pool ι σ τ Op Res ε → Label ι τ Op Res ε → Pool ι σ τ Op Res ε → β → Prop}
    {s s' : Pool ι σ τ Op Res ε} {labels : List (Label ι τ Op Res ε)} {log : List β}
    (h : Observed sys C notes s s' labels log) : Run sys C s labels s' := by
  induction h with
  | refl => exact .refl
  | noted _ hc hstep _ ih => exact .step ih hc hstep
  | silent _ hc hstep _ ih => exact .step ih hc hstep

/-- Every run can be observed. -/
theorem Run.exists_observed {sys : PoolSystem σ τ Op Res ε} {β : Type}
    {C : Pool ι σ τ Op Res ε → Label ι τ Op Res ε → Prop}
    (notes : Pool ι σ τ Op Res ε → Label ι τ Op Res ε → Pool ι σ τ Op Res ε → β → Prop)
    {s s' : Pool ι σ τ Op Res ε} {labels : List (Label ι τ Op Res ε)}
    (hrun : Run sys C s labels s') : ∃ log, Observed sys C notes s s' labels log := by
  induction hrun with
  | refl => exact ⟨[], .refl⟩
  | @step s' s'' labels l _ hc hstep ih =>
      obtain ⟨log, hlog⟩ := ih
      by_cases hnotes : ∃ b, notes s' l s'' b
      · obtain ⟨b, hb⟩ := hnotes
        exact ⟨_, .noted hlog hc hstep hb⟩
      · exact ⟨log, .silent hlog hc hstep (not_exists.mp hnotes)⟩

end Semantics

/-! ## Disciplines -/

/-- What every thread keeps to, by what it was started for: under the
assumption on replies, each call meets the obligation, and the thread ends
in one of the two postconditions. -/
structure Discipline (τ Op : Type) (Res : Op → Type) (ε : Type) where
  assumption : τ → History Op Res ε → Event Op Res ε → Prop
  obligation : τ → History Op Res ε → Op → Prop
  returned : τ → History Op Res ε → Prop
  threw : τ → History Op Res ε → Prop

namespace Discipline

variable (D : Discipline τ Op Res ε)

/-- The rest of a program keeps to the discipline after history `h`. -/
def Keeps (info : τ) (p : Prog Op Res ε Unit) (h : History Op Res ε) : Prop :=
  p.wp (D.assumption info) (D.obligation info) h (fun _ => D.returned info)
    (fun _ => D.threw info)

/-- A thread has kept to the discipline and will. -/
structure Conforms (th : Thread τ Op Res ε) : Prop where
  past : Along (fun h ev => D.obligation th.info h ev.op ∧ D.assumption th.info h ev) []
    th.history
  rest : D.Keeps th.info th.prog th.history

/-- One call keeps the discipline, when the reply meets the assumption. -/
theorem Conforms.call {D : Discipline τ Op Res ε} {info : τ} {h : History Op Res ε} {op : Op}
    {k : Except ε (Res op) → Prog Op Res ε Unit} {reply : Reply ε (Res op)}
    (hth : D.Conforms ⟨info, h, .call op k⟩) (hA : D.assumption info h ⟨op, reply⟩) :
    D.Conforms ⟨info, h ++ [⟨op, reply⟩], k reply.result⟩ where
  past := Prog.along_append.mpr ⟨hth.past, ⟨hth.rest.1, hA⟩, trivial⟩
  rest := hth.rest.2 reply hA

end Discipline

/-! ## The invariant rule -/

variable [DecidableEq ι] {sys : PoolSystem σ τ Op Res ε} {init : σ → Prop}
  {C : Pool ι σ τ Op Res ε → Label ι τ Op Res ε → Prop}

/-- Every thread of the pool keeps to the discipline. -/
def Conform (D : Discipline τ Op Res ε) (s : Pool ι σ τ Op Res ε) : Prop :=
  ∀ t th, s.threads t = some th → D.Conforms th

omit [DecidableEq ι] in
/-- The empty pool. -/
theorem conform_empty (D : Discipline τ Op Res ε) (w : σ) :
    (⟨w, fun _ => none⟩ : Pool ι σ τ Op Res ε).Conform D := fun _ _ hth => by cases hth

/-- A step keeps the discipline, when the reply meets the assumption. -/
theorem Conform.step {D : Discipline τ Op Res ε} {s s' : Pool ι σ τ Op Res ε}
    {l : Label ι τ Op Res ε} (hconf : s.Conform D)
    (hprog : ∀ info, D.Keeps info (sys.program info) []) (hs : Step sys s l s')
    (hassume : ∀ t info h op k reply, l = .act t ⟨op, reply⟩ →
      s.threads t = some ⟨info, h, .call op k⟩ → sys.exec op s.world reply s'.world →
      D.assumption info h ⟨op, reply⟩) : s'.Conform D := by
  intro t th hth
  rcases hs.thread_cases hth with
    hold | ⟨info, -, -, rfl⟩ | ⟨info, h, op, k, reply, rfl, hold, hexec, rfl⟩
  · exact hconf t th hold
  · exact ⟨trivial, hprog info⟩
  · exact (hconf t _ hold).call (hassume _ _ _ _ _ _ rfl hold hexec)

/-- An invariant that implies the assumption on every reply, and that every
step of a conforming pool keeps, holds in every reachable pool; and every
reachable pool conforms. -/
theorem Reachable.invariant (D : Discipline τ Op Res ε) (Inv : Pool ι σ τ Op Res ε → Prop)
    (hprog : ∀ info, D.Keeps info (sys.program info) [])
    (hinit : ∀ w, init w → Inv ⟨w, fun _ => none⟩)
    (hassume : ∀ (s : Pool ι σ τ Op Res ε) t info h op k reply w', Inv s → s.Conform D →
      C s (.act t ⟨op, reply⟩) → s.threads t = some ⟨info, h, .call op k⟩ →
      sys.exec op s.world reply w' → D.assumption info h ⟨op, reply⟩)
    (hstep : ∀ (s s' : Pool ι σ τ Op Res ε) l, Inv s → s.Conform D → s'.Conform D → C s l →
      Step sys s l s' → Inv s')
    {s : Pool ι σ τ Op Res ε} (h : Reachable sys init C s) : Inv s ∧ s.Conform D := by
  induction h with
  | start hw => exact ⟨hinit _ hw, conform_empty D _⟩
  | @step s s' l _ hc hs ih =>
      obtain ⟨hinv, hconf⟩ := ih
      have hconf' : s'.Conform D := hconf.step hprog hs fun _ _ _ _ _ _ hl hth hexec =>
        hassume _ _ _ _ _ _ _ _ hinv hconf (hl ▸ hc) hth hexec
      exact ⟨hstep s s' l hinv hconf hconf' hc hs, hconf'⟩

/-! ## Facts about histories -/

/-- What is true of a call when it is made, and stays true of it, is true of
every call that a thread of a reachable pool has made. -/
theorem Reachable.along {F : σ → History Op Res ε → Event Op Res ε → Prop}
    (hstays : ∀ {s s' : Pool ι σ τ Op Res ε} {l}, Reachable sys init C s → C s l →
      Step sys s l s' → ∀ h ev, F s.world h ev → F s'.world h ev)
    (hnew : ∀ {s s' : Pool ι σ τ Op Res ε} {t info h op k reply}, Reachable sys init C s →
      C s (.act t ⟨op, reply⟩) → s.threads t = some ⟨info, h, .call op k⟩ →
      Step sys s (.act t ⟨op, reply⟩) s' → F s'.world h ⟨op, reply⟩)
    {s : Pool ι σ τ Op Res ε} (h : Reachable sys init C s) :
    ∀ t th, s.threads t = some th → Along (F s.world) [] th.history := by
  induction h with
  | start _ => exact fun t th hth => by cases hth
  | step hreach hc hs ih =>
      intro t th hth
      rcases hs.thread_cases hth with
        hold | ⟨info, -, -, rfl⟩ | ⟨info, h, op, k, reply, rfl, hold, -, rfl⟩
      · exact Prog.along_mono (hstays hreach hc hs) (ih t th hold)
      · trivial
      · exact Prog.along_append.mpr ⟨Prog.along_mono (hstays hreach hc hs) (ih t _ hold),
          by simpa using hnew hreach hc hold hs, trivial⟩

/-! ## Obligations under arbitrary replies -/

/-- The discipline of threads that meet `P` whatever the replies. -/
def Discipline.ofSafe (P : τ → History Op Res ε → Op → Prop) : Discipline τ Op Res ε where
  assumption _ _ _ := True
  obligation := P
  returned _ _ := True
  threw _ _ := True

/-- In a reachable pool every call made so far has met its obligation, and
so will those to come. -/
theorem Reachable.obeys {P : τ → History Op Res ε → Op → Prop}
    (hprog : ∀ info, Prog.SafeFrom (P info) [] (sys.program info)) {s : Pool ι σ τ Op Res ε}
    (h : Reachable sys init C s) : s.Conform (.ofSafe P) :=
  (Reachable.invariant (.ofSafe P) (fun _ => True) hprog (fun _ _ => trivial)
    (fun _ _ _ _ _ _ _ _ _ _ _ _ _ => trivial) (fun _ _ _ _ _ _ _ _ => trivial) h).2

omit [DecidableEq ι] in
/-- The next call of a thread meets its obligation. -/
theorem Conform.next {P : τ → History Op Res ε → Op → Prop} {s : Pool ι σ τ Op Res ε}
    (hs : s.Conform (.ofSafe P)) {t : ι} {info : τ} {h : History Op Res ε} {op : Op}
    {k : Except ε (Res op) → Prog Op Res ε Unit}
    (hth : s.threads t = some ⟨info, h, .call op k⟩) : P info h op :=
  (hs t _ hth).rest.1

end Pool
