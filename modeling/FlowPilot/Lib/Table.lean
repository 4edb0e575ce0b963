import Mathlib.Data.List.Nodup

/-!
# Tables

A table of a database as the list of its rows. Two kinds of writes: an
insert appends a row, and `UPDATE ... WHERE` changes the rows that meet a
condition, in place. A key is unique if the rows have distinct values of it.
-/

namespace Table

variable {ρ κ : Type} {rows : List ρ} {row row' : ρ} {key : ρ → κ}
  {p : ρ → Prop} [DecidablePred p] {f : ρ → ρ}

/-! ## Updates -/

/-- The rows after an update. -/
theorem mem_update :
    row' ∈ (rows.map fun r => if p r then f r else r)
      ↔ (row' ∈ rows ∧ ¬ p row') ∨ ∃ r ∈ rows, p r ∧ row' = f r := by
  rw [List.mem_map]
  constructor
  · rintro ⟨r, hr, rfl⟩
    by_cases hp : p r
    · rw [if_pos hp]
      exact Or.inr ⟨r, hr, hp, rfl⟩
    · rw [if_neg hp]
      exact Or.inl ⟨hr, hp⟩
  · rintro (⟨hr, hp⟩ | ⟨r, hr, hp, rfl⟩)
    · exact ⟨row', hr, if_neg hp⟩
    · exact ⟨r, hr, if_pos hp⟩

/-- An update keeps a column that it does not set. -/
theorem map_update (hkept : ∀ r, key (f r) = key r) :
    (rows.map fun r => if p r then f r else r).map key = rows.map key := by
  rw [List.map_map]
  refine List.map_congr_left fun r _ => ?_
  simp only [Function.comp]
  split
  · exact hkept r
  · rfl

/-- An update is not seen by a query for other rows. -/
theorem filter_update {q : ρ → Bool} (hp : ∀ r ∈ rows, p r → q r = false ∧ q (f r) = false) :
    (rows.map fun r => if p r then f r else r).filter q = rows.filter q := by
  induction rows with
  | nil => rfl
  | cons r rows ih =>
      obtain ⟨hr, hrest⟩ := List.forall_mem_cons.mp hp
      rw [List.map_cons]
      by_cases hpr : p r
      · rw [if_pos hpr, List.filter_cons_of_neg (by simp [(hr hpr).2]),
          List.filter_cons_of_neg (by simp [(hr hpr).1]), ih hrest]
      · rw [if_neg hpr, List.filter_cons, List.filter_cons, ih hrest]

/-! ## Unique keys -/

/-- An insert of a row with a new key. -/
theorem nodup_insert (h : (rows.map key).Nodup) (hnew : ∀ r ∈ rows, key r ≠ key row) :
    ((rows ++ [row]).map key).Nodup := by
  rw [List.map_append, List.nodup_append]
  refine ⟨h, List.nodup_singleton _, ?_⟩
  rintro k hk k' hk' rfl
  obtain ⟨r, hr, rfl⟩ := List.mem_map.mp hk
  exact hnew r hr (List.mem_singleton.mp hk')

/-- A query for a unique key has one answer. -/
theorem filter_key [DecidableEq κ] (h : (rows.map key).Nodup) (hrow : row ∈ rows) :
    rows.filter (fun r => key r = key row) = [row] := by
  obtain ⟨before, after, rfl⟩ := List.append_of_mem hrow
  rw [List.map_append, List.map_cons, List.nodup_middle, List.nodup_cons] at h
  have hother : ∀ r, r ∈ before ∨ r ∈ after → key r ≠ key row := by
    intro r hr heq
    refine h.1 ?_
    rw [← List.map_append, ← heq]
    exact List.mem_map_of_mem (List.mem_append.mpr hr)
  have hnone : ∀ l : List ρ, (∀ r ∈ l, key r ≠ key row) →
      l.filter (fun r => key r = key row) = [] :=
    fun l hl => List.filter_eq_nil_iff.mpr fun r hr => by simpa using hl r hr
  rw [List.filter_append, List.filter_cons_of_pos (by simp),
    hnone before fun r hr => hother r (Or.inl hr), hnone after fun r hr => hother r (Or.inr hr),
    List.nil_append]

end Table
