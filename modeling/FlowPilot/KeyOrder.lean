import FlowPilot.Json
import Mathlib.Data.List.Forall2
import Mathlib.Data.Option.Basic

/-!
# JSON up to the order of keys

A `jsonb` column returns what was stored in it, but the fields of an object
in an order of its own. `Json.Same` is the least congruence in which the
fields of an object may be put in any order; its inversions say what a value
with the same content looks like (`Same.eq_of_atom`, `Same.of_arr`,
`Same.of_obj`), and what its fields hold (`Same.of_object`).
-/

namespace FlowPilot

namespace Json

/-- The same value, up to the order of the fields of the objects in it. -/
inductive Same : Json → Json → Prop
  | refl (v : Json) : Same v v
  | trans {u v w : Json} : Same u v → Same v w → Same u w
  | item {before after : List Json} {u v : Json} : Same u v →
      Same (.arr (before ++ u :: after)) (.arr (before ++ v :: after))
  | field {before after : Record} {k : String} {u v : Json} : Same u v →
      Same (.obj (before ++ (k, u) :: after)) (.obj (before ++ (k, v) :: after))
  | order {fields fields' : Record} : fields.Perm fields' → Same (.obj fields) (.obj fields')

theorem Same.symm {u v : Json} (h : Same u v) : Same v u := by
  induction h with
  | refl v => exact .refl v
  | trans _ _ ihu ihv => exact .trans ihv ihu
  | item _ ih => exact .item ih
  | field _ ih => exact .field ih
  | order h => exact .order h.symm

/-! ## What a value with the same content looks like -/

/-- Neither an array nor an object. -/
def IsAtom : Json → Prop
  | .arr _ => False
  | .obj _ => False
  | _ => True

theorem Same.eq_of_atom {u v : Json} (h : Same u v) (hu : u.IsAtom) : v = u := by
  induction h with
  | refl v => rfl
  | trans _ _ ihu ihv =>
      obtain rfl := ihu hu
      exact ihv hu
  | item _ _ => exact hu.elim
  | field _ _ => exact hu.elim
  | order _ => exact hu.elim

/-- The arrays of a chain have the same items. -/
theorem Same.items_trans : ∀ {first second third : List Json}, List.Forall₂ Same first second →
    List.Forall₂ Same second third → List.Forall₂ Same first third
  | [], _, _, .nil, .nil => .nil
  | _ :: _, _, _, .cons h rest, .cons h' rest' => .cons (h.trans h') (items_trans rest rest')

theorem Same.of_arr {u v : Json} (h : Same u v) :
    ∀ {items : List Json}, u = .arr items → ∃ items', v = .arr items' ∧
      List.Forall₂ Same items items' := by
  have hrefl : ∀ items : List Json, List.Forall₂ Same items items :=
    fun items => List.forall₂_same.mpr fun v _ => .refl v
  induction h with
  | refl v => exact fun hv => ⟨_, hv, hrefl _⟩
  | trans _ _ ihu ihv =>
      intro items hu
      obtain ⟨items', hv, hitems⟩ := ihu hu
      obtain ⟨items'', hw, hitems'⟩ := ihv hv
      exact ⟨items'', hw, items_trans hitems hitems'⟩
  | @item before after u v hsame _ =>
      intro items hu
      obtain rfl := Json.arr.inj hu
      exact ⟨_, rfl, List.rel_append (hrefl before) (.cons hsame (hrefl after))⟩
  | field _ _ => exact fun hu => by cases hu
  | order _ => exact fun hu => by cases hu

/-- The same keys, and every field holds what a field of that key held. -/
structure SameFields (fields fields' : Record) : Prop where
  keys : (fields'.map (·.1)).Perm (fields.map (·.1))
  values : ∀ entry' ∈ fields', ∃ entry ∈ fields, entry.1 = entry'.1 ∧ Same entry.2 entry'.2

theorem SameFields.refl (fields : Record) : SameFields fields fields :=
  ⟨.refl _, fun entry hentry => ⟨entry, hentry, rfl, .refl _⟩⟩

theorem SameFields.trans {first second third : Record} (h : SameFields first second)
    (h' : SameFields second third) : SameFields first third := by
  refine ⟨h'.keys.trans h.keys, fun entry'' hentry'' => ?_⟩
  obtain ⟨entry', hentry', hkey', hsame'⟩ := h'.values entry'' hentry''
  obtain ⟨entry, hentry, hkey, hsame⟩ := h.values entry' hentry'
  exact ⟨entry, hentry, hkey.trans hkey', hsame.trans hsame'⟩

theorem Same.of_obj {u v : Json} (h : Same u v) :
    ∀ {fields : Record}, u = .obj fields → ∃ fields', v = .obj fields' ∧
      SameFields fields fields' := by
  induction h with
  | refl v => exact fun hv => ⟨_, hv, .refl _⟩
  | trans _ _ ihu ihv =>
      intro fields hu
      obtain ⟨fields', hv, hfields⟩ := ihu hu
      obtain ⟨fields'', hw, hfields'⟩ := ihv hv
      exact ⟨fields'', hw, hfields.trans hfields'⟩
  | item _ _ => exact fun hu => by cases hu
  | @field before after k u v hsame _ =>
      intro fields hu
      obtain rfl := Json.obj.inj hu
      refine ⟨_, rfl, by simp, fun entry' hentry' => ?_⟩
      rcases List.mem_append.mp hentry' with hbefore | hafter
      · exact ⟨entry', List.mem_append_left _ hbefore, rfl, .refl _⟩
      · rcases List.mem_cons.mp hafter with rfl | hafter
        · exact ⟨(k, u), List.mem_append_right _ List.mem_cons_self, rfl, hsame⟩
        · exact ⟨entry', List.mem_append_right _ (List.mem_cons_of_mem _ hafter), rfl, .refl _⟩
  | @order fields fields' hperm =>
      intro fields₀ hu
      obtain rfl := Json.obj.inj hu
      exact ⟨fields', rfl, hperm.symm.map _,
        fun entry' hentry' => ⟨entry', hperm.mem_iff.mpr hentry', rfl, .refl _⟩⟩

/-! ## Values with the same parts -/

theorem Same.arr {items items' : List Json} (h : List.Forall₂ Same items items') :
    Same (.arr items) (.arr items') := by
  suffices hbefore : ∀ before, Same (.arr (before ++ items)) (.arr (before ++ items')) from
    hbefore []
  induction h with
  | nil => exact fun before => .refl _
  | @cons u v items items' hsame _ ih =>
      intro before
      refine .trans (.item hsame) ?_
      simpa using ih (before ++ [v])

theorem Same.obj {fields fields' : Record}
    (h : List.Forall₂ (fun entry entry' => entry.1 = entry'.1 ∧ Same entry.2 entry'.2)
      fields fields') : Same (.obj fields) (.obj fields') := by
  suffices hbefore : ∀ before, Same (.obj (before ++ fields)) (.obj (before ++ fields')) from
    hbefore []
  induction h with
  | nil => exact fun before => .refl _
  | @cons entry entry' fields fields' hentry _ ih =>
      intro before
      obtain ⟨k, u⟩ := entry
      obtain ⟨k', v⟩ := entry'
      obtain ⟨rfl, hsame⟩ := hentry
      refine .trans (.field hsame) ?_
      simpa using ih (before ++ [(k, v)])

/-! ## Objects with optional fields -/

/-- An object; a field that is `none` is not there. -/
def object (entries : List (String × Option Json)) : Json :=
  .obj (entries.filterMap fun entry => entry.2.map (entry.1, ·))

end Json

/-- Distinct keys are looked up whatever their order. -/
theorem lookup_of_mem {β : Type} {k : String} {v : β} : ∀ {fields : List (String × β)},
    (fields.map (·.1)).Nodup → (k, v) ∈ fields → fields.lookup k = some v
  | (k', v') :: fields, hnodup, hmem => by
      rw [List.map_cons, List.nodup_cons] at hnodup
      rcases List.mem_cons.mp hmem with heq | hmem
      · cases heq
        exact List.lookup_cons_self
      · have hne : k ≠ k' := fun h => hnodup.1 (h ▸ List.mem_map_of_mem (f := (·.1)) hmem)
        rw [List.lookup_cons, beq_eq_false_iff_ne.mpr hne]
        exact lookup_of_mem hnodup.2 hmem

namespace Json

variable {entries entries' : List (String × Option Json)} {v : Json} {k : String} {o : Option Json}

theorem mem_object {u : Json} :
    (k, u) ∈ entries.filterMap (fun entry => entry.2.map (entry.1, ·)) ↔ (k, some u) ∈ entries := by
  simp only [List.mem_filterMap, Option.map_eq_some_iff, Prod.mk.injEq, Prod.exists]
  constructor
  · rintro ⟨_, _, hentry, _, rfl, rfl, rfl⟩
    exact hentry
  · exact fun hentry => ⟨k, some u, hentry, u, rfl, rfl, rfl⟩

/-- The fields of an object are some of its entries. -/
theorem object_keys_sublist : ∀ entries : List (String × Option Json),
    ((entries.filterMap fun entry => entry.2.map (entry.1, ·)).map (·.1)).Sublist
      (entries.map (·.1))
  | [] => .slnil
  | (k, none) :: entries => (object_keys_sublist entries).cons k
  | (k, some _) :: entries => (object_keys_sublist entries).cons_cons k

/-- What a value with the content of an object holds under its keys. -/
theorem Same.of_object (h : Same (object entries) v) (hkeys : (entries.map (·.1)).Nodup) :
    ∃ fields, v = .obj fields ∧ (∀ key ∈ fields.map (·.1), key ∈ entries.map (·.1))
      ∧ ∀ k o, (k, o) ∈ entries → Option.Rel Same o (fields.lookup k) := by
  obtain ⟨fields, rfl, hfields⟩ := h.of_obj rfl
  have hnodup := hkeys.sublist (object_keys_sublist entries)
  have hnodup' : (fields.map (·.1)).Nodup := hfields.keys.nodup_iff.mpr hnodup
  refine ⟨fields, rfl, fun key hkey =>
    (object_keys_sublist entries).subset (hfields.keys.subset hkey), fun k o hentry => ?_⟩
  -- a field of that key holds what the one entry of the key says
  have hfield : ∀ w, (k, w) ∈ fields → ∃ u, o = some u ∧ Same u w := by
    intro w hmem
    obtain ⟨⟨k', u⟩, hentry', hkey, hsame⟩ := hfields.values _ hmem
    obtain rfl : k' = k := hkey
    have heq := List.inj_on_of_nodup_map hkeys hentry (mem_object.mp hentry') rfl
    exact ⟨u, (Prod.mk.inj heq).2, hsame⟩
  cases hlookup : fields.lookup k with
  | some w =>
      obtain ⟨before, after, hsplit, -⟩ := List.lookup_eq_some_iff.mp hlookup
      obtain ⟨u, rfl, hsame⟩ := hfield w (by simp [hsplit])
      exact .some hsame
  | none =>
      cases o with
      | none => exact .none
      | some u =>
          have hkey : k ∈ fields.map (·.1) := hfields.keys.symm.subset
            (List.mem_map_of_mem (f := (·.1)) (mem_object.mpr hentry))
          obtain ⟨⟨k', w⟩, hmem, rfl⟩ := List.mem_map.mp hkey
          exact absurd (hlookup.symm.trans (lookup_of_mem hnodup' hmem)) (by simp)

/-- Objects whose entries have the same content. -/
theorem Same.object (h : List.Forall₂
    (fun entry entry' => entry.1 = entry'.1 ∧ Option.Rel Same entry.2 entry'.2) entries entries') :
    Same (object entries) (object entries') := by
  refine .obj ?_
  induction h with
  | nil => exact .nil
  | @cons entry entry' entries entries' hentry _ ih =>
      obtain ⟨k, o⟩ := entry
      obtain ⟨k', o'⟩ := entry'
      obtain ⟨rfl, hsame⟩ := hentry
      cases hsame with
      | none => exact ih
      | some hsame => exact .cons ⟨rfl, hsame⟩ ih

end Json

end FlowPilot
