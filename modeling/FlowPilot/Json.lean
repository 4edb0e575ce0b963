import Mathlib.Data.Char
import Mathlib.Data.List.Lex
import Mathlib.Data.List.Nodup

/-!
# JavaScript values

The values the services exchange and store, and the three JavaScript
collections the code computes with:

- `Json`, what `JSON.parse` returns for a text with finite numbers and what
  a `Json` column holds. A finite double is a rational; nothing here rounds.
  (`ParsedJson` is what `JSON.parse` returns for any text.)
- `Record`, the `Record<string, unknown>` of the source. Records are
  compared as finite maps (a `jsonb` column does not keep key order), so
  `Record.fromEntries` files the entries by key and the result does not
  depend on their order (`Record.fromEntries_perm`).
- `JsSet` and `JsMap`, `Set<string>` and `Map<string, T>` in insertion
  order.
-/

namespace FlowPilot

/-! ## JSON -/

/-- A JSON value. The fields of an object are its own properties. -/
inductive Json where
  | null
  | bool (b : Bool)
  | num (q : Rat)
  | str (s : String)
  | arr (items : List Json)
  | obj (fields : List (String × Json))
deriving Repr, Inhabited

mutual

/-- Equality of JSON values is decidable, by recursion on both. -/
def Json.decEq : (a b : Json) → Decidable (a = b)
  | .null, .null => isTrue rfl
  | .bool a, .bool b =>
      if h : a = b then isTrue (by rw [h]) else isFalse (fun e => h (Json.bool.inj e))
  | .num a, .num b =>
      if h : a = b then isTrue (by rw [h]) else isFalse (fun e => h (Json.num.inj e))
  | .str a, .str b =>
      if h : a = b then isTrue (by rw [h]) else isFalse (fun e => h (Json.str.inj e))
  | .arr a, .arr b =>
      match Json.decEqItems a b with
      | isTrue h => isTrue (by rw [h])
      | isFalse h => isFalse (fun e => h (Json.arr.inj e))
  | .obj a, .obj b =>
      match Json.decEqFields a b with
      | isTrue h => isTrue (by rw [h])
      | isFalse h => isFalse (fun e => h (Json.obj.inj e))
  | .null, .bool _ | .null, .num _ | .null, .str _ | .null, .arr _ | .null, .obj _
  | .bool _, .null | .bool _, .num _ | .bool _, .str _ | .bool _, .arr _ | .bool _, .obj _
  | .num _, .null | .num _, .bool _ | .num _, .str _ | .num _, .arr _ | .num _, .obj _
  | .str _, .null | .str _, .bool _ | .str _, .num _ | .str _, .arr _ | .str _, .obj _
  | .arr _, .null | .arr _, .bool _ | .arr _, .num _ | .arr _, .str _ | .arr _, .obj _
  | .obj _, .null | .obj _, .bool _ | .obj _, .num _ | .obj _, .str _ | .obj _, .arr _ =>
      isFalse nofun

def Json.decEqItems : (a b : List Json) → Decidable (a = b)
  | [], [] => isTrue rfl
  | [], _ :: _ | _ :: _, [] => isFalse nofun
  | a :: as, b :: bs =>
      match Json.decEq a b, Json.decEqItems as bs with
      | isTrue h, isTrue hs => isTrue (by rw [h, hs])
      | isFalse h, _ => isFalse (fun e => h (List.cons.inj e).1)
      | _, isFalse hs => isFalse (fun e => hs (List.cons.inj e).2)

def Json.decEqFields : (a b : List (String × Json)) → Decidable (a = b)
  | [], [] => isTrue rfl
  | [], _ :: _ | _ :: _, [] => isFalse nofun
  | (k, a) :: as, (l, b) :: bs =>
      if hk : k = l then
        match Json.decEq a b, Json.decEqFields as bs with
        | isTrue h, isTrue hs => isTrue (by rw [hk, h, hs])
        | isFalse h, _ => isFalse (fun e => h (Prod.mk.inj (List.cons.inj e).1).2)
        | _, isFalse hs => isFalse (fun e => hs (List.cons.inj e).2)
      else isFalse (fun e => hk (Prod.mk.inj (List.cons.inj e).1).1)

end

instance : DecidableEq Json := Json.decEq

/-- `Record<string, unknown>`: the own properties of a plain object. -/
abbrev Record := List (String × Json)

/-- `isRecord`: an object that is neither `null` nor an array. -/
def Json.isRecord : Json → Bool
  | .obj _ => true
  | _ => false

/-- `value[key]`; `none` is `undefined`. -/
def Json.get? : Json → String → Option Json
  | .obj fields, key => fields.lookup key
  | _, _ => none

/-- `typeof value === "string"`. -/
def Json.isString : Option Json → Bool
  | some (.str _) => true
  | _ => false

/-- `typeof value === "number"`. -/
def Json.isNumber : Option Json → Bool
  | some (.num _) => true
  | _ => false

/-- The string a field holds once its type has been checked. -/
def Json.asString : Option Json → String
  | some (.str s) => s
  | _ => ""

/-- The record a field holds once its type has been checked. -/
def Json.asRecord : Option Json → Record
  | some (.obj fields) => fields
  | _ => []

/-- What the process takes from its platform and its environment: the
acceptance of `new URL(value)`, `Date.parse` (`none` is `NaN`), the length of
`JSON.stringify(value)` in bytes, and whether
`FLOWPILOT_ENABLE_WORKER_FAILURE_SIMULATION` is `"true"`. -/
class Runtime where
  isUrl : String → Bool
  dateParse : String → Option Int
  jsonSizeBytes : Record → Nat
  failureSimulation : Bool

/-- A runtime for evaluation; it knows one date and the size of the empty object. -/
@[reducible] def Runtime.sample (failureSimulation : Bool) : Runtime where
  isUrl _ := false
  dateParse s := if s = "1970-01-01T00:00:00.000Z" then some 0 else none
  jsonSizeBytes _ := 2
  failureSimulation

/-! ## Records as finite maps -/

namespace Record

/-- Define property `k`, keeping the keys in ascending order. -/
def insert (k : String) (v : Json) : Record → Record
  | [] => [(k, v)]
  | (k', v') :: r =>
      if k.toList < k'.toList then (k, v) :: (k', v') :: r
      else if k = k' then (k, v) :: r
      else (k', v') :: insert k v r

/-- `Object.fromEntries`: later entries of one key win. -/
def fromEntries (entries : List (String × Json)) : Record :=
  entries.foldl (fun r e => insert e.1 e.2 r) []

theorem insert_of_lt {k k' : String} (h : k.toList < k'.toList) (v v' : Json) (r : Record) :
    insert k v ((k', v') :: r) = (k, v) :: (k', v') :: r := by
  simp [insert, h]

theorem insert_of_eq (k : String) (v v' : Json) (r : Record) :
    insert k v ((k, v') :: r) = (k, v) :: r := by
  simp [insert]

theorem insert_of_gt {k k' : String} (h : k'.toList < k.toList) (v v' : Json) (r : Record) :
    insert k v ((k', v') :: r) = (k', v') :: insert k v r := by
  have hne : k ≠ k' := fun he => lt_irrefl _ (he ▸ h)
  simp [insert, not_lt_of_gt h, hne]

/-- Keys are totally ordered by their characters. -/
theorem key_trichotomy (k k' : String) :
    k.toList < k'.toList ∨ k = k' ∨ k'.toList < k.toList := by
  rcases lt_trichotomy k.toList k'.toList with h | h | h
  · exact Or.inl h
  · exact Or.inr (Or.inl (String.toList_inj.mp h))
  · exact Or.inr (Or.inr h)

theorem insert_comm_of_lt {k k' : String} (hlt : k.toList < k'.toList) (v v' : Json) :
    ∀ r : Record, insert k v (insert k' v' r) = insert k' v' (insert k v r)
  | [] => by
      show insert k v [(k', v')] = insert k' v' [(k, v)]
      rw [insert_of_lt hlt, insert_of_gt hlt]
      rfl
  | (m, w) :: r => by
      rcases key_trichotomy k' m with hk' | rfl | hk'
      · rw [insert_of_lt hk', insert_of_lt hlt, insert_of_lt (hlt.trans hk'),
          insert_of_gt hlt, insert_of_lt hk']
      · rw [insert_of_eq, insert_of_lt hlt, insert_of_lt hlt, insert_of_gt hlt, insert_of_eq]
      · rw [insert_of_gt hk']
        rcases key_trichotomy k m with hk | rfl | hk
        · rw [insert_of_lt hk, insert_of_lt hk, insert_of_gt hlt, insert_of_gt hk']
        · rw [insert_of_eq, insert_of_eq, insert_of_gt hlt]
        · rw [insert_of_gt hk, insert_of_gt hk, insert_of_gt hk',
            insert_comm_of_lt hlt v v' r]

/-- Defining two different properties commutes. -/
theorem insert_comm {k k' : String} (hne : k ≠ k') (v v' : Json) (r : Record) :
    insert k v (insert k' v' r) = insert k' v' (insert k v r) := by
  rcases key_trichotomy k k' with h | h | h
  · exact insert_comm_of_lt h v v' r
  · exact absurd h hne
  · exact (insert_comm_of_lt h v' v r).symm

/-- Entries with distinct keys give the same record in any order. -/
theorem fromEntries_perm {l l' : List (String × Json)} (hperm : l.Perm l')
    (hnodup : (l.map (·.1)).Nodup) : fromEntries l = fromEntries l' := by
  have hpair : l.Pairwise fun e f => e.1 ≠ f.1 := List.pairwise_map.mp hnodup
  refine hperm.foldl_eq' (fun x hx y hy z => ?_) []
  by_cases hxy : x = y
  · rw [hxy]
  · exact insert_comm (fun h => hxy (List.inj_on_of_nodup_map hnodup hx hy h.symm)) _ _ _

end Record

/-! ## `Set<string>` -/

/-- `Set<string>`, its elements in insertion order. -/
structure JsSet where
  items : List String
deriving DecidableEq, Repr

namespace JsSet

def empty : JsSet := ⟨[]⟩

def has (s : JsSet) (x : String) : Bool := decide (x ∈ s.items)

def add (s : JsSet) (x : String) : JsSet :=
  if x ∈ s.items then s else ⟨s.items ++ [x]⟩

def delete (s : JsSet) (x : String) : JsSet := ⟨s.items.filter (· ≠ x)⟩

@[simp] theorem has_iff {s : JsSet} {x : String} : s.has x = true ↔ x ∈ s.items := by
  simp [has]

@[simp] theorem mem_empty {x : String} : x ∈ empty.items ↔ False := by
  simp [empty]

@[simp] theorem mem_add {s : JsSet} {x y : String} :
    y ∈ (s.add x).items ↔ y ∈ s.items ∨ y = x := by
  unfold add
  split
  · constructor
    · exact Or.inl
    · rintro (h | rfl) <;> assumption
  · simp

@[simp] theorem mem_delete {s : JsSet} {x y : String} :
    y ∈ (s.delete x).items ↔ y ∈ s.items ∧ y ≠ x := by
  simp [delete]

end JsSet

/-! ## `Map<string, T>` -/

/-- `Map<string, T>`, its entries in insertion order. -/
structure JsMap (β : Type) where
  entries : List (String × β)
deriving Repr

namespace JsMap

variable {β : Type}

def empty : JsMap β := ⟨[]⟩

def get? (m : JsMap β) (k : String) : Option β := m.entries.lookup k

/-- Overwrite the value of `k` in place, or append the entry. -/
def setEntries (k : String) (v : β) : List (String × β) → List (String × β)
  | [] => [(k, v)]
  | (k', v') :: es => if k' = k then (k, v) :: es else (k', v') :: setEntries k v es

def set (m : JsMap β) (k : String) (v : β) : JsMap β := ⟨setEntries k v m.entries⟩

@[simp] theorem get?_empty (k : String) : (empty : JsMap β).get? k = none := rfl

theorem lookup_setEntries (k l : String) (v : β) : ∀ es : List (String × β),
    (setEntries k v es).lookup l = if l = k then some v else es.lookup l
  | [] => by
      by_cases h : l = k
      · simp [setEntries, h]
      · simp [setEntries, List.lookup_cons, h, beq_eq_false_iff_ne.mpr h]
  | (k', v') :: es => by
      have ih := lookup_setEntries k l v es
      by_cases hk : k' = k
      · subst hk
        by_cases h : l = k'
        · simp [setEntries, h]
        · simp [setEntries, List.lookup_cons, h, beq_eq_false_iff_ne.mpr h]
      · by_cases h : l = k'
        · subst h
          simp [setEntries, hk]
        · simp [setEntries, hk, List.lookup_cons, beq_eq_false_iff_ne.mpr h, ih]

@[simp] theorem get?_set (m : JsMap β) (k l : String) (v : β) :
    (m.set k v).get? l = if l = k then some v else m.get? l :=
  lookup_setEntries k l v m.entries

/-- `new Map(entries)`. -/
def ofEntries (entries : List (String × β)) : JsMap β :=
  entries.foldl (fun m e => m.set e.1 e.2) empty

theorem get?_foldl_set_of_notMem {k : String} :
    ∀ {es : List (String × β)} {m : JsMap β}, (∀ e ∈ es, e.1 ≠ k) →
      (es.foldl (fun m e => m.set e.1 e.2) m).get? k = m.get? k
  | [], _, _ => rfl
  | e :: es, m, h => by
      have hne : ¬ k = e.1 := fun he => h e List.mem_cons_self he.symm
      rw [List.foldl_cons, get?_foldl_set_of_notMem fun f hf => h f (List.mem_cons_of_mem _ hf)]
      simp [hne]

/-- Entries with distinct keys are all found. -/
theorem get?_foldl_set_of_mem {k : String} {v : β} :
    ∀ {es : List (String × β)} {m : JsMap β}, (es.map (·.1)).Nodup → (k, v) ∈ es →
      (es.foldl (fun m e => m.set e.1 e.2) m).get? k = some v
  | e :: es, m, hnodup, hmem => by
      rw [List.map_cons, List.nodup_cons] at hnodup
      rw [List.foldl_cons]
      rcases List.mem_cons.mp hmem with rfl | hmem
      · rw [get?_foldl_set_of_notMem fun f hf he => hnodup.1 (List.mem_map.mpr ⟨f, hf, he⟩)]
        simp
      · exact get?_foldl_set_of_mem hnodup.2 hmem

theorem get?_ofEntries_of_mem {es : List (String × β)} {k : String} {v : β}
    (hnodup : (es.map (·.1)).Nodup) (hmem : (k, v) ∈ es) : (ofEntries es).get? k = some v :=
  get?_foldl_set_of_mem hnodup hmem

end JsMap

end FlowPilot
