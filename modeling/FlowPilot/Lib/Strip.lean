import Mathlib.Data.List.DropRight
import Mathlib.Data.List.Flatten

/-!
# Stripping a list at both ends

`strip p` drops what meets `p` at the start and at the end of a list, and a
list is blank if that is all of it. Where the list is the concatenation of
parts, blank parts at either end do not matter. Those in between do: leaving
them out changes the stripped list unless they are empty (`strip_kept`).
-/

namespace Strip

variable {α : Type} {p : α → Bool} {l a b x y m : List α}

/-- All of the list is stripped. -/
def Blank (p : α → Bool) (l : List α) : Prop := ∀ c ∈ l, p c = true

instance (p : α → Bool) (l : List α) : Decidable (Blank p l) :=
  inferInstanceAs (Decidable (∀ c ∈ l, p c = true))

/-- The list without what meets `p` at its ends. -/
def strip (p : α → Bool) (l : List α) : List α := (l.dropWhile p).rdropWhile p

theorem blank_append : Blank p (a ++ b) ↔ Blank p a ∧ Blank p b := by
  simp only [Blank, List.mem_append, or_imp, forall_and]

theorem blank_flatten {parts : List (List α)} :
    Blank p parts.flatten ↔ ∀ part ∈ parts, Blank p part := by
  simp only [Blank, List.mem_flatten]
  exact ⟨fun h part hpart c hc => h c ⟨part, hpart, hc⟩,
    fun h c ⟨part, hpart, hc⟩ => h part hpart c hc⟩

/-! ## What is stripped -/

theorem dropWhile_append_of_not_blank (h : ¬ Blank p a) :
    (a ++ b).dropWhile p = a.dropWhile p ++ b := by
  rw [List.dropWhile_append, if_neg]
  rw [List.isEmpty_iff, List.dropWhile_eq_nil_iff]
  exact h

theorem rdropWhile_append_of_blank (h : Blank p b) :
    (a ++ b).rdropWhile p = a.rdropWhile p := by
  rw [List.rdropWhile, List.reverse_append, List.dropWhile_append_of_pos, List.rdropWhile]
  exact fun c hc => h c (List.mem_reverse.mp hc)

theorem rdropWhile_append_of_not_blank (h : ¬ Blank p b) :
    (a ++ b).rdropWhile p = a ++ b.rdropWhile p := by
  have hrev : ¬ Blank p b.reverse := fun hb => h fun c hc => hb c (List.mem_reverse.mpr hc)
  rw [List.rdropWhile, List.reverse_append, dropWhile_append_of_not_blank hrev,
    List.reverse_append, List.reverse_reverse, List.rdropWhile]

/-- What is left of a list, and what is not. -/
theorem exists_strip (p : α → Bool) (l : List α) :
    ∃ before after, l = before ++ strip p l ++ after ∧ Blank p before ∧ Blank p after := by
  refine ⟨l.takeWhile p, (l.dropWhile p).rtakeWhile p, ?_, fun c hc => List.mem_takeWhile_imp hc,
    fun c hc => List.mem_rtakeWhile_imp hc⟩
  rw [strip, List.append_assoc, List.rdropWhile_append_rtakeWhile,
    List.takeWhile_append_dropWhile]

theorem strip_eq_nil : strip p l = [] ↔ Blank p l := by
  constructor
  · intro h
    obtain ⟨before, after, hl, hbefore, hafter⟩ := exists_strip p l
    rw [hl, h, List.append_nil]
    exact blank_append.mpr ⟨hbefore, hafter⟩
  · intro h
    rw [strip, List.dropWhile_eq_nil_iff.mpr h, List.rdropWhile_nil]

theorem strip_blank_append (h : Blank p a) : strip p (a ++ b) = strip p b := by
  rw [strip, List.dropWhile_append_of_pos h, strip]

theorem strip_append_blank (h : Blank p b) : strip p (a ++ b) = strip p a := by
  by_cases ha : Blank p a
  · rw [strip_eq_nil.mpr ha, strip_eq_nil.mpr (blank_append.mpr ⟨ha, h⟩)]
  · rw [strip, dropWhile_append_of_not_blank ha, rdropWhile_append_of_blank h, strip]

/-- Nothing in the middle is stripped. -/
theorem strip_between (hx : ¬ Blank p x) (hy : ¬ Blank p y) :
    strip p (x ++ m ++ y) = x.dropWhile p ++ m ++ y.rdropWhile p := by
  rw [strip, List.append_assoc, dropWhile_append_of_not_blank hx, ← List.append_assoc,
    rdropWhile_append_of_not_blank hy]

theorem strip_map {β : Type} (f : β → α) (l : List β) :
    strip p (l.map f) = (strip (p ∘ f) l).map f := by
  rw [strip, List.dropWhile_map, List.rdropWhile, ← List.map_reverse, List.dropWhile_map,
    ← List.map_reverse, strip, List.rdropWhile]

theorem not_head_strip {c : α} (h : strip p l = c :: m) : p c = false := by
  obtain ⟨rest, hrest⟩ := List.rdropWhile_prefix p (l := l.dropWhile p)
  have hhead := List.head?_dropWhile_not p l
  rw [← hrest, show (l.dropWhile p).rdropWhile p = c :: m from h] at hhead
  exact hhead

theorem not_last_strip {c : α} (h : strip p l = m ++ [c]) : p c = false := by
  have hne : (l.dropWhile p).rdropWhile p ≠ [] := by
    rw [show (l.dropWhile p).rdropWhile p = m ++ [c] from h]
    simp
  have hlast := List.rdropWhile_last_not p (l.dropWhile p) hne
  rw [List.getLast_congr hne (by simp) h, List.getLast_append_singleton] at hlast
  simpa using hlast

/-- What is left is empty, or its first and its last element are not
stripped. -/
theorem strip_cases (p : α → Bool) (l : List α) :
    strip p l = [] ∨ (∃ c, strip p l = [c] ∧ p c = false)
      ∨ ∃ c m d, strip p l = c :: (m ++ [d]) ∧ p c = false ∧ p d = false := by
  cases hs : strip p l with
  | nil => exact Or.inl rfl
  | cons c rest =>
      have hc := not_head_strip hs
      rcases List.eq_nil_or_concat rest with rfl | ⟨m, d, rfl⟩
      · exact Or.inr (Or.inl ⟨c, rfl, hc⟩)
      · rw [List.concat_eq_append] at hs ⊢
        rw [← List.cons_append] at hs
        exact Or.inr (Or.inr ⟨c, m, d, rfl, hc, not_last_strip hs⟩)

/-! ## Parts -/

/-- Whether the part is blank. -/
def blank (p : α → Bool) (part : List α) : Bool := decide (Blank p part)

theorem blank_eq_false {part : List α} : blank p part = false ↔ ¬ Blank p part :=
  decide_eq_false_iff_not

/-- The parts that are not blank. -/
def kept (p : α → Bool) (parts : List (List α)) : List (List α) :=
  parts.filter fun part => !blank p part

theorem kept_append (parts rest : List (List α)) :
    kept p (parts ++ rest) = kept p parts ++ kept p rest :=
  List.filter_append ..

theorem kept_of_blank {parts : List (List α)} (h : ∀ part ∈ parts, Blank p part) :
    kept p parts = [] :=
  List.filter_eq_nil_iff.mpr fun part hpart => by simp [blank, h part hpart]

theorem kept_cons_of_not_blank {part : List α} {parts : List (List α)} (h : ¬ Blank p part) :
    kept p (part :: parts) = part :: kept p parts :=
  List.filter_cons_of_pos (by simp [blank, h])

theorem blank_kept {parts : List (List α)} :
    Blank p (kept p parts).flatten ↔ Blank p parts.flatten := by
  simp only [blank_flatten, kept, List.mem_filter, blank, Bool.not_eq_true',
    decide_eq_false_iff_not]
  exact ⟨fun h part hpart => by_contra fun hblank => hblank (h part ⟨hpart, hblank⟩),
    fun h part hpart => h part hpart.1⟩

/-- Leaving out blank parts keeps the concatenation iff they are empty. -/
theorem kept_flatten {parts : List (List α)} :
    (kept p parts).flatten = parts.flatten ↔ ∀ part ∈ parts, Blank p part → part = [] := by
  induction parts with
  | nil => simp [kept]
  | cons part parts ih =>
      rw [List.forall_mem_cons, ← ih, List.flatten_cons]
      by_cases hblank : Blank p part
      · rw [kept, List.filter_cons_of_neg (by simp [blank, hblank]), ← kept]
        constructor
        · intro h
          have hle : (kept p parts).flatten.length ≤ parts.flatten.length :=
            (List.filter_sublist.flatten).length_le
          have hlength := congrArg List.length h
          rw [List.length_append] at hlength
          obtain rfl : part = [] := List.eq_nil_of_length_eq_zero (by omega)
          exact ⟨fun _ => rfl, h⟩
        · rintro ⟨hpart, h⟩
          rw [hpart hblank, List.nil_append, h]
      · rw [kept_cons_of_not_blank hblank, List.flatten_cons]
        simp [hblank]

/-- Blank parts at the ends of the list do not matter. -/
theorem strip_flatten_strip (parts : List (List α)) :
    strip p (strip (blank p) parts).flatten = strip p parts.flatten := by
  obtain ⟨before, after, hparts, hbefore, hafter⟩ := exists_strip (blank p) parts
  have hblank : ∀ {ends : List (List α)}, Blank (blank p) ends → Blank p ends.flatten :=
    fun hends => blank_flatten.mpr fun part hpart => of_decide_eq_true (hends part hpart)
  conv_rhs => rw [hparts]
  rw [List.flatten_append, List.flatten_append, strip_append_blank (hblank hafter),
    strip_blank_append (hblank hbefore)]

theorem kept_strip (parts : List (List α)) :
    kept p (strip (blank p) parts) = kept p parts := by
  obtain ⟨before, after, hparts, hbefore, hafter⟩ := exists_strip (blank p) parts
  conv_rhs => rw [hparts]
  rw [kept_append, kept_append, kept_of_blank fun part hpart => of_decide_eq_true (hbefore _ hpart),
    kept_of_blank fun part hpart => of_decide_eq_true (hafter _ hpart), List.nil_append,
    List.append_nil]

/-- Leaving out the blank parts changes nothing iff those with other parts on
both sides are empty. -/
theorem strip_kept (parts : List (List α)) :
    strip p (kept p parts).flatten = strip p parts.flatten
      ↔ ∀ part ∈ strip (blank p) parts, Blank p part → part = [] := by
  rw [← kept_strip parts, ← strip_flatten_strip parts]
  rcases strip_cases (blank p) parts with h | ⟨x, h, hx⟩ | ⟨x, m, y, h, hx, hy⟩
  · rw [h]
    simp [kept]
  · rw [h, kept_cons_of_not_blank (blank_eq_false.mp hx)]
    simpa [kept] using fun hblank => absurd hblank (blank_eq_false.mp hx)
  · have hx := blank_eq_false.mp hx
    have hy := blank_eq_false.mp hy
    have hends : ∀ mid : List (List α), strip p (x :: (mid ++ [y])).flatten
        = x.dropWhile p ++ mid.flatten ++ y.rdropWhile p := by
      intro mid
      rw [← strip_between hx hy]
      simp
    have hlast : kept p [y] = [y] := kept_cons_of_not_blank hy
    rw [h, kept_cons_of_not_blank hx, kept_append, hlast, hends, hends,
      List.append_left_inj, List.append_right_inj, kept_flatten]
    simp [hx, hy, or_imp, forall_and]

end Strip
