import Mathlib.Data.List.Infix

/-!
# The order of steps

Conditions on a run in terms of its labels alone. `Fresh` says that no write
has come since some read, the condition under which what was read is still
current; `Throughout` that every step meets a condition on the steps before
it. Both follow a run as it grows at the end (`fresh_concat`,
`throughout_concat`), and both are decided that way, from the last step back.
-/

namespace StepOrder

variable {L : Type} {read write : L → Prop} {P : List L → L → Prop} {labels : List L} {l : L}

/-! ## Since a read -/

/-- A read stands in the labels, and no write behind it. -/
def Fresh (read write : L → Prop) (labels : List L) : Prop :=
  ∃ earlier r later, labels = earlier ++ r :: later ∧ read r ∧ ∀ l ∈ later, ¬ write l

theorem not_fresh_nil : ¬ Fresh read write [] := by
  rintro ⟨earlier, r, later, h, -⟩
  simp at h

theorem fresh_concat :
    Fresh read write (labels ++ [l]) ↔ read l ∨ Fresh read write labels ∧ ¬ write l := by
  constructor
  · rintro ⟨earlier, r, later, h, hread, hlater⟩
    rcases List.eq_nil_or_concat' later with rfl | ⟨later, l', rfl⟩
    · obtain ⟨-, hlast⟩ := List.append_inj' h rfl
      cases hlast
      exact Or.inl hread
    · rw [← List.cons_append, ← List.append_assoc] at h
      obtain ⟨rfl, hlast⟩ := List.append_inj' h rfl
      cases hlast
      exact Or.inr ⟨⟨earlier, r, later, rfl, hread, fun l hl =>
        hlater l (List.mem_append_left _ hl)⟩, hlater l (by simp)⟩
  · rintro (hread | ⟨⟨earlier, r, later, rfl, hread, hlater⟩, hl⟩)
    · exact ⟨labels, l, [], rfl, hread, by simp⟩
    · refine ⟨earlier, r, later ++ [l], by simp, hread, fun l' hl' => ?_⟩
      rcases List.mem_append.mp hl' with hl' | hl'
      · exact hlater l' hl'
      · exact List.mem_singleton.mp hl' ▸ hl

/-- The same, computed from the last label back. -/
def freshBack (read write : L → Prop) [DecidablePred read] [DecidablePred write] : List L → Bool
  | [] => false
  | l :: earlier => read l || (freshBack read write earlier && !write l)

theorem fresh_iff_freshBack [DecidablePred read] [DecidablePred write] :
    Fresh read write labels ↔ freshBack read write labels.reverse = true := by
  induction labels using List.reverseRecOn with
  | nil => simp [not_fresh_nil, freshBack]
  | append_singleton labels l ih => simp [fresh_concat, freshBack, ih]

instance [DecidablePred read] [DecidablePred write] : Decidable (Fresh read write labels) :=
  decidable_of_iff _ fresh_iff_freshBack.symm

/-! ## At every step -/

/-- Every label meets the condition on those before it. -/
def Throughout (P : List L → L → Prop) (labels : List L) : Prop :=
  ∀ before l, before ++ [l] <+: labels → P before l

theorem throughout_nil : Throughout P [] := by
  intro before l h
  simp at h

theorem throughout_concat :
    Throughout P (labels ++ [l]) ↔ Throughout P labels ∧ P labels l := by
  constructor
  · intro h
    exact ⟨fun before l' hbefore => h before l' (hbefore.trans (List.prefix_append _ _)),
      h labels l (List.prefix_refl _)⟩
  · rintro ⟨hlabels, hl⟩ before l' hbefore
    rcases List.prefix_concat_iff.mp hbefore with heq | hbefore
    · obtain ⟨rfl, hlast⟩ := List.append_inj' heq rfl
      cases hlast
      exact hl
    · exact hlabels before l' hbefore

/-- The same, computed from the last label back. -/
def throughoutBack (P : List L → L → Prop) [∀ before l, Decidable (P before l)] : List L → Bool
  | [] => true
  | l :: earlier => throughoutBack P earlier && P earlier.reverse l

theorem throughout_iff_throughoutBack [∀ before l, Decidable (P before l)] :
    Throughout P labels ↔ throughoutBack P labels.reverse = true := by
  induction labels using List.reverseRecOn with
  | nil => simp [throughout_nil, throughoutBack]
  | append_singleton labels l ih => simp [throughout_concat, throughoutBack, ih]

instance [∀ before l, Decidable (P before l)] : Decidable (Throughout P labels) :=
  decidable_of_iff _ throughout_iff_throughoutBack.symm

end StepOrder
