import FlowPilot.Lib.Prog

/-!
# Running programs against a world

`Replays` puts the events of a program in a world in which every call has an
effect, and `Runs` is a complete run of a program there, with a rule for
each construct. `After` is a run that need not be complete. `runCalls`
computes one, call by call, when an oracle decides how each call is answered;
what it computes is a run (`runCalls_sound`), so that runs of a given program
can be found by evaluation.
-/

namespace Prog

variable {σ Op : Type} {Res : Op → Type} {ε α : Type}

/-- The events lead from one world to another. -/
def Replays (exec : (op : Op) → σ → Reply ε (Res op) → σ → Prop) :
    σ → List (Event Op Res ε) → σ → Prop
  | w, [], w' => w = w'
  | w, ev :: events, w' => ∃ w₁, exec ev.op w ev.reply w₁ ∧ Replays exec w₁ events w'

theorem replays_append {exec : (op : Op) → σ → Reply ε (Res op) → σ → Prop} {w w' : σ}
    {first rest : List (Event Op Res ε)} :
    Replays exec w (first ++ rest) w' ↔
      ∃ w₁, Replays exec w first w₁ ∧ Replays exec w₁ rest w' := by
  induction first generalizing w with
  | nil => simp [Replays]
  | cons ev first ih =>
      simp only [List.cons_append, Replays, ih]
      constructor
      · rintro ⟨w₁, hexec, w₂, hfirst, hrest⟩
        exact ⟨w₂, ⟨w₁, hexec, hfirst⟩, hrest⟩
      · rintro ⟨w₂, ⟨w₁, hexec, hfirst⟩, hrest⟩
        exact ⟨w₁, hexec, w₂, hfirst, hrest⟩

theorem replays_mono {exec exec' : (op : Op) → σ → Reply ε (Res op) → σ → Prop}
    (hexec : ∀ op w reply w', exec op w reply w' → exec' op w reply w') :
    ∀ {events : List (Event Op Res ε)} {w w' : σ}, Replays exec w events w' →
      Replays exec' w events w'
  | [], _, _, h => h
  | _ :: _, _, _, ⟨w₁, h, hrest⟩ => ⟨w₁, hexec _ _ _ _ h, replays_mono hexec hrest⟩

/-- What holds of every answered call holds of the events. -/
theorem replays_events {exec : (op : Op) → σ → Reply ε (Res op) → σ → Prop}
    {Q : Event Op Res ε → Prop}
    (hQ : ∀ op w reply w', exec op w reply w' → Q ⟨op, reply⟩) :
    ∀ {events : List (Event Op Res ε)} {w w' : σ}, Replays exec w events w' →
      ∀ ev ∈ events, Q ev
  | [], _, _, _ => by simp
  | _ :: _, _, _, ⟨_, hexec, hrest⟩ =>
      List.forall_mem_cons.mpr ⟨hQ _ _ _ _ hexec, replays_events hQ hrest⟩

/-- What every call keeps, the events keep. -/
theorem replays_invariant {exec : (op : Op) → σ → Reply ε (Res op) → σ → Prop} {P : σ → Prop}
    (hP : ∀ op w reply w', P w → exec op w reply w' → P w') :
    ∀ {events : List (Event Op Res ε)} {w w' : σ}, Replays exec w events w' → P w → P w'
  | [], _, _, h, hw => h ▸ hw
  | _ :: _, _, _, ⟨_, hexec, hrest⟩, hw => replays_invariant hP hrest (hP _ _ _ _ hw hexec)

/-! ## Complete runs in a world -/

/-- `p` runs from `w` to `w'` and ends in `out`. -/
def Runs (exec : (op : Op) → σ → Reply ε (Res op) → σ → Prop) (p : Prog Op Res ε α) (w : σ)
    (out : Except ε α) (w' : σ) : Prop :=
  ∃ events, Trace p events out ∧ Replays exec w events w'

section Runs

variable {exec : (op : Op) → σ → Reply ε (Res op) → σ → Prop} {w w' : σ} {β : Type}

theorem runs_pure {a : α} {out : Except ε α}
    (h : Runs exec (pure a : Prog Op Res ε α) w out w') : out = .ok a ∧ w' = w := by
  obtain ⟨_, htrace, hreplays⟩ := h
  cases htrace
  exact ⟨rfl, hreplays.symm⟩

theorem runs_throw {e : ε} {out : Except ε α}
    (h : Runs exec (throw e : Prog Op Res ε α) w out w') : out = .error e ∧ w' = w := by
  obtain ⟨_, htrace, hreplays⟩ := h
  cases htrace
  exact ⟨rfl, hreplays.symm⟩

theorem runs_perform {op : Op} {out : Except ε (Res op)}
    (h : Runs exec (perform op) w out w') : ∃ reply, exec op w reply w' ∧ out = reply.result := by
  obtain ⟨events, htrace, hreplays⟩ := h
  cases htrace with
  | call reply hrest =>
      cases reply with
      | ok b =>
          cases hrest
          obtain ⟨w₁, hexec, rfl⟩ := hreplays
          exact ⟨.ok b, hexec, rfl⟩
      | lost e =>
          cases hrest
          obtain ⟨w₁, hexec, rfl⟩ := hreplays
          exact ⟨.lost e, hexec, rfl⟩
      | failed e =>
          cases hrest
          obtain ⟨w₁, hexec, rfl⟩ := hreplays
          exact ⟨.failed e, hexec, rfl⟩

theorem runs_bind {p : Prog Op Res ε α} {f : α → Prog Op Res ε β} {out : Except ε β}
    (h : Runs exec (p >>= f) w out w') :
    (∃ e, Runs exec p w (.error e) w' ∧ out = .error e)
      ∨ ∃ a w₁, Runs exec p w (.ok a) w₁ ∧ Runs exec (f a) w₁ out w' := by
  obtain ⟨events, htrace, hreplays⟩ := h
  rcases trace_bind htrace with ⟨e, hp, rfl⟩ | ⟨a, first, rest, hp, hf, rfl⟩
  · exact Or.inl ⟨e, ⟨events, hp, hreplays⟩, rfl⟩
  · obtain ⟨w₁, hfirst, hrest⟩ := replays_append.mp hreplays
    exact Or.inr ⟨a, w₁, ⟨first, hp, hfirst⟩, ⟨rest, hf, hrest⟩⟩

/-- A run whose result is not used. -/
theorem runs_discard {p : Prog Op Res ε α} {b : β} {out : Except ε β}
    (h : Runs exec (p >>= fun _ => pure b) w out w') : ∃ out', Runs exec p w out' w' := by
  rcases runs_bind h with ⟨e, hp, -⟩ | ⟨a, w₁, hp, hrest⟩
  · exact ⟨_, hp⟩
  · obtain ⟨-, rfl⟩ := runs_pure hrest
    exact ⟨_, hp⟩

theorem runs_tryCatch {p : Prog Op Res ε α} {handler : ε → Prog Op Res ε α} {out : Except ε α}
    (h : Runs exec (p.tryCatch handler) w out w') :
    (∃ a, Runs exec p w (.ok a) w' ∧ out = .ok a)
      ∨ ∃ e w₁, Runs exec p w (.error e) w₁ ∧ Runs exec (handler e) w₁ out w' := by
  obtain ⟨events, htrace, hreplays⟩ := h
  rcases trace_tryCatch htrace with ⟨a, hp, rfl⟩ | ⟨e, first, rest, hp, hhandler, rfl⟩
  · exact Or.inl ⟨a, ⟨events, hp, hreplays⟩, rfl⟩
  · obtain ⟨w₁, hfirst, hrest⟩ := replays_append.mp hreplays
    exact Or.inr ⟨e, w₁, ⟨first, hp, hfirst⟩, ⟨rest, hhandler, hrest⟩⟩

/-- In a world that answers every call, every program runs to its end. -/
theorem exists_runs (htotal : ∀ op w, ∃ reply w', exec op w reply w') :
    ∀ (p : Prog Op Res ε α) (w : σ), ∃ out w', Runs exec p w out w'
  | pure a, w => ⟨.ok a, w, [], .pure a, rfl⟩
  | throw e, w => ⟨.error e, w, [], .throw e, rfl⟩
  | call op k, w => by
      obtain ⟨reply, w₁, hexec⟩ := htotal op w
      obtain ⟨out, w', events, htrace, hreplays⟩ := exists_runs htotal (k reply.result) w₁
      exact ⟨out, w', _, .call reply htrace, w₁, hexec, hreplays⟩

end Runs

/-! ## Runs that are not complete -/

/-- `After p events q`: having made the calls of `events`, `p` goes on as
`q`. -/
inductive After : Prog Op Res ε α → List (Event Op Res ε) → Prog Op Res ε α → Prop
  | refl (p : Prog Op Res ε α) : After p [] p
  | call {op : Op} {k : Except ε (Res op) → Prog Op Res ε α} (reply : Reply ε (Res op))
      {events : List (Event Op Res ε)} {q : Prog Op Res ε α} :
      After (k reply.result) events q → After (call op k) (⟨op, reply⟩ :: events) q

/-- A run that is interrupted between two events. -/
theorem After.split {p q : Prog Op Res ε α} {first rest : List (Event Op Res ε)}
    (h : After p (first ++ rest) q) : ∃ p', After p first p' ∧ After p' rest q := by
  induction first generalizing p with
  | nil => exact ⟨p, .refl p, h⟩
  | cons ev first ih =>
      cases h with
      | call reply h =>
          obtain ⟨p', hfirst, hrest⟩ := ih h
          exact ⟨p', .call reply hfirst, hrest⟩

/-- A run of one call. -/
theorem After.singleton {p q : Prog Op Res ε α} {ev : Event Op Res ε} (h : After p [ev] q) :
    ∃ k, p = .call ev.op k ∧ q = k ev.reply.result := by
  cases h with
  | @call op k reply _ _ h =>
      generalize hk : k reply.result = p at h
      cases h with
      | refl => exact ⟨k, rfl, hk.symm⟩

/-- After a body that has thrown, the handler is left. -/
theorem After.tryCatch {p : Prog Op Res ε α} {events : List (Event Op Res ε)} {e : ε}
    (handler : ε → Prog Op Res ε α) (h : After p events (.throw e)) :
    After (p.tryCatch handler) events (handler e) := by
  generalize hq : (throw e : Prog Op Res ε α) = q at h
  induction h with
  | refl p =>
      subst hq
      exact .refl _
  | call reply _ ih => exact .call reply (ih hq)

/-- A run that leaves nothing to do is complete. -/
theorem trace_of_after {p q : Prog Op Res ε α} {events : List (Event Op Res ε)}
    {out : Except ε α} (h : After p events q) (hq : Trace q [] out) : Trace p events out := by
  induction h with
  | refl p => exact hq
  | call reply _ ih => exact .call reply (ih hq)

/-- Run up to `n` calls, the `i`-th answered by the oracle, which may refuse
to answer. -/
def runCalls (answer : Nat → (op : Op) → σ → Option (Reply ε (Res op) × σ)) :
    Nat → Nat → Prog Op Res ε α → σ → Option (List (Event Op Res ε) × Prog Op Res ε α × σ)
  | n + 1, i, call op k, w =>
      match answer i op w with
      | none => none
      | some (reply, w₁) =>
          (runCalls answer n (i + 1) (k reply.result) w₁).map
            fun (events, q, w') => (⟨op, reply⟩ :: events, q, w')
  | _, _, p, w => some ([], p, w)

theorem runCalls_sound {exec : (op : Op) → σ → Reply ε (Res op) → σ → Prop}
    {answer : Nat → (op : Op) → σ → Option (Reply ε (Res op) × σ)}
    (hanswer : ∀ i op w reply w', answer i op w = some (reply, w') → exec op w reply w') :
    ∀ {n i : Nat} {p : Prog Op Res ε α} {w : σ} {events : List (Event Op Res ε)}
      {q : Prog Op Res ε α} {w' : σ}, runCalls answer n i p w = some (events, q, w') →
      After p events q ∧ Replays exec w events w'
  | n + 1, i, call op k, w, events, q, w', h => by
      simp only [runCalls] at h
      cases hreply : answer i op w with
      | none => simp [hreply] at h
      | some result =>
          obtain ⟨reply, w₁⟩ := result
          simp only [hreply] at h
          obtain ⟨⟨rest, q', w''⟩, hrest, heq⟩ := Option.map_eq_some_iff.mp h
          cases heq
          obtain ⟨hafter, hreplays⟩ := runCalls_sound hanswer hrest
          exact ⟨.call reply hafter, w₁, hanswer i op w reply w₁ hreply, hreplays⟩
  | 0, _, p, w, _, _, _, h => by
      cases p <;> cases h <;> exact ⟨.refl _, rfl⟩
  | n + 1, _, pure a, w, _, _, _, h => by
      cases h
      exact ⟨.refl _, rfl⟩
  | n + 1, _, throw e, w, _, _, _, h => by
      cases h
      exact ⟨.refl _, rfl⟩

/-- A program that is computed to its end has a run with the property
checked. -/
theorem exists_runs_of_runCalls {exec : (op : Op) → σ → Reply ε (Res op) → σ → Prop}
    {answer : Nat → (op : Op) → σ → Option (Reply ε (Res op) × σ)}
    (hanswer : ∀ i op w reply w', answer i op w = some (reply, w') → exec op w reply w')
    {n i : Nat} {p : Prog Op Res ε α} {w : σ} {check : σ → Bool}
    (h : (runCalls answer n i p w).any (fun (_, q, w') => q.ended?.isSome && check w') = true) :
    ∃ out w', Runs exec p w out w' ∧ check w' = true := by
  obtain ⟨⟨events, q, w'⟩, hcalls, hcheck⟩ := (Option.any_eq_true _ _).mp h
  simp only [Bool.and_eq_true] at hcheck
  obtain ⟨out, hq⟩ := Option.isSome_iff_exists.mp hcheck.1
  obtain ⟨hafter, hreplays⟩ := runCalls_sound hanswer hcalls
  exact ⟨out, w', ⟨events, trace_of_after hafter (trace_of_ended? hq), hreplays⟩, hcheck.2⟩

end Prog
