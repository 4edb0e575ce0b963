import Mathlib.Data.List.Forall2

/-!
# Unwinding

A machine answers one action after another. An observer sees the answers of
the visible actions, as far as `see` shows them, and takes two of these for
the same where `Same` says so.

`Unwinding` asks two things of a view of the states: hidden actions do not
change it, and what a visible action shows and leaves behind is a matter of the
view and of the action up to `Same`. Then what is seen of a run depends only
on its visible actions, up to `Same` (`observe_eq`): hidden actions can be left
out, and visible ones changed in what `Same` ignores.

The conditions only have to hold in runs that are `Proper`.
-/

/-- The view `view` unwinds a machine. -/
structure Unwinding {S A R O V : Type} (step : S → A → R × S) (visible : A → Bool)
    (see : A → R → Option O) (Same : A → A → Prop) (Proper : S → List A → Prop)
    (view : S → V) : Prop where
  proper_rest : ∀ {s : S} {a : A} {actions : List A}, Proper s (a :: actions) →
    Proper (step s a).2 actions
  hidden_kept : ∀ {s : S} {a : A} {actions : List A}, Proper s (a :: actions) →
    visible a = false → view (step s a).2 = view s
  hidden_unseen : ∀ {a : A} {r : R}, visible a = false → see a r = none
  visible_kept : ∀ {s t : S} {a b : A} {actions actions' : List A}, Proper s (a :: actions) →
    Proper t (b :: actions') → visible a = true → Same a b → view s = view t →
    view (step s a).2 = view (step t b).2
  visible_seen : ∀ {s t : S} {a b : A} {actions actions' : List A}, Proper s (a :: actions) →
    Proper t (b :: actions') → visible a = true → Same a b → view s = view t →
    see a (step s a).1 = see b (step t b).1

namespace Unwinding

variable {S A R O V : Type} {step : S → A → R × S} {visible : A → Bool} {see : A → R → Option O}
  {Same : A → A → Prop} {Proper : S → List A → Prop} {view : S → V}

/-- The actions of a run, with their answers. -/
def replies (step : S → A → R × S) : S → List A → List (A × R)
  | _, [] => []
  | s, a :: actions => (a, (step s a).1) :: replies step (step s a).2 actions

/-- The state a run ends in. -/
def final (step : S → A → R × S) (s : S) (actions : List A) : S :=
  actions.foldl (fun s a => (step s a).2) s

/-- What is seen of a run. -/
def observe (step : S → A → R × S) (see : A → R → Option O) (s : S) (actions : List A) : List O :=
  (replies step s actions).filterMap fun entry => see entry.1 entry.2

theorem replies_append : ∀ {actions rest : List A} {s : S}, replies step s (actions ++ rest)
    = replies step s actions ++ replies step (final step s actions) rest
  | [], _, _ => rfl
  | _ :: _, _, _ => congrArg _ replies_append

/-- What the last action adds to a run. -/
theorem replies_concat {actions : List A} {a : A} {s : S} : replies step s (actions ++ [a])
    = replies step s actions ++ [(a, (step (final step s actions) a).1)] := by
  rw [replies_append]
  rfl

theorem final_concat {actions : List A} {a : A} {s : S} :
    final step s (actions ++ [a]) = (step (final step s actions) a).2 := by
  simp [final]

theorem observe_hidden (h : Unwinding step visible see Same Proper view) {a : A}
    (ha : visible a = false) (s : S) (actions : List A) :
    observe step see s (a :: actions) = observe step see (step s a).2 actions := by
  simp [observe, replies, h.hidden_unseen ha]

/-- Hidden actions do not show. -/
theorem skip (h : Unwinding step visible see Same Proper view) {rest : List A} :
    ∀ {hidden : List A} {s : S}, (∀ a ∈ hidden, visible a = false) → Proper s (hidden ++ rest) →
      observe step see s (hidden ++ rest) = observe step see (final step s hidden) rest
        ∧ view (final step s hidden) = view s ∧ Proper (final step s hidden) rest
  | [], _, _, hs => ⟨rfl, rfl, hs⟩
  | a :: hidden, s, hall, hs => by
      obtain ⟨ha, hall⟩ := List.forall_mem_cons.mp hall
      obtain ⟨hseen, hview, hproper⟩ := h.skip hall (h.proper_rest hs)
      exact ⟨(h.observe_hidden ha s _).trans hseen, hview.trans (h.hidden_kept hs ha), hproper⟩

/-- What is seen of two runs is the same if their visible actions are. -/
theorem observe_eq (h : Unwinding step visible see Same Proper view) :
    ∀ {actions actions' : List A} {s t : S}, Proper s actions → Proper t actions' →
      view s = view t → List.Forall₂ Same (actions.filter visible) (actions'.filter visible) →
      observe step see s actions = observe step see t actions'
  | [], actions', s, t, _, ht, _, hsame => by
      have hhidden : ∀ a ∈ actions', visible a = false := by
        simpa using List.forall₂_nil_left_iff.mp hsame
      rw [← List.append_nil actions'] at ht ⊢
      exact (h.skip hhidden ht).1.symm
  | a :: actions, actions', s, t, hs, ht, hview, hsame => by
      cases ha : visible a with
      | false =>
          rw [List.filter_cons_of_neg (by simp [ha])] at hsame
          rw [h.observe_hidden ha]
          exact h.observe_eq (h.proper_rest hs) ht ((h.hidden_kept hs ha).trans hview) hsame
      | true =>
          rw [List.filter_cons_of_pos ha] at hsame
          obtain ⟨b, visibles, hab, hrest, hfilter⟩ := List.forall₂_cons_left_iff.mp hsame
          obtain ⟨hidden, after, rfl, hhidden, hb, rfl⟩ := List.filter_eq_cons_iff.mp hfilter
          obtain ⟨hseen, hkept, hproper⟩ := h.skip (by simpa using hhidden) ht
          have hview' := hview.trans hkept.symm
          rw [hseen]
          have htail := h.observe_eq (h.proper_rest hs) (h.proper_rest hproper)
            (h.visible_kept hs hproper ha hab hview') hrest
          simp only [observe, replies, List.filterMap_cons] at htail ⊢
          rw [h.visible_seen hs hproper ha hab hview', htail]

end Unwinding
