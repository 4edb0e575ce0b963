import FlowPilot.Json
import FlowPilot.Lib.JsNumber

/-!
# JSON texts

What `JSON.parse` makes of a text, and the text `JSON.stringify` writes. A
text is given by the tree of its literals, a `Json` in which a number is the
decimal that stands there, and the value of a text is a `ParsedJson`: each
decimal has become the nearest double, or an infinity if it is too large for
one. `JSON.stringify` writes an infinity as `null`, so the value it reads
back is the one that was written exactly if all numbers are finite
(`NumberText.reread_parse_eq_iff`). A text that `JSON.stringify` wrote holds
no number that is too large (`NumberText.isFinite_reread`).

The rest of the development is about values without infinities: they are the
`Json` values (`ParsedJson.ofJson`, `ParsedJson.exists_ofJson_iff`).
-/

namespace FlowPilot

open JsNumber

/-- A value that `JSON.parse` returns, with the numbers of the language. -/
inductive ParsedJson where
  | null
  | bool (b : Bool)
  | num (x : JsNumber)
  | str (s : String)
  | arr (items : List ParsedJson)
  | obj (fields : List (String × ParsedJson))
deriving Repr, Inhabited

/-! ## Two walks -/

mutual

/-- The value with the number `f q` for the number `q`. -/
def Json.toValue (f : Rat → JsNumber) : Json → ParsedJson
  | .null => .null
  | .bool b => .bool b
  | .num q => .num (f q)
  | .str s => .str s
  | .arr items => .arr (Json.toValueItems f items)
  | .obj fields => .obj (Json.toValueFields f fields)

def Json.toValueItems (f : Rat → JsNumber) : List Json → List ParsedJson
  | [] => []
  | v :: items => v.toValue f :: Json.toValueItems f items

def Json.toValueFields (f : Rat → JsNumber) : List (String × Json) → List (String × ParsedJson)
  | [] => []
  | (key, v) :: fields => (key, v.toValue f) :: Json.toValueFields f fields

end

mutual

/-- The tree with `g x` for the number `x`. -/
def ParsedJson.toTree (g : JsNumber → Json) : ParsedJson → Json
  | .null => .null
  | .bool b => .bool b
  | .num x => g x
  | .str s => .str s
  | .arr items => .arr (ParsedJson.toTreeItems g items)
  | .obj fields => .obj (ParsedJson.toTreeFields g fields)

def ParsedJson.toTreeItems (g : JsNumber → Json) : List ParsedJson → List Json
  | [] => []
  | v :: items => v.toTree g :: ParsedJson.toTreeItems g items

def ParsedJson.toTreeFields (g : JsNumber → Json) :
    List (String × ParsedJson) → List (String × Json)
  | [] => []
  | (key, v) :: fields => (key, v.toTree g) :: ParsedJson.toTreeFields g fields

end

mutual

/-- The numbers in a value, from left to right. -/
def ParsedJson.numbers : ParsedJson → List JsNumber
  | .num x => [x]
  | .arr items => ParsedJson.numbersItems items
  | .obj fields => ParsedJson.numbersFields fields
  | _ => []

def ParsedJson.numbersItems : List ParsedJson → List JsNumber
  | [] => []
  | v :: items => v.numbers ++ ParsedJson.numbersItems items

def ParsedJson.numbersFields : List (String × ParsedJson) → List JsNumber
  | [] => []
  | (_, v) :: fields => v.numbers ++ ParsedJson.numbersFields fields

end

/-! ### There and back -/

section

variable (f : Rat → JsNumber) (g : JsNumber → Json)

mutual

/-- A value comes back from its tree exactly if each of its numbers does. -/
theorem ParsedJson.toValue_toTree_eq_iff : ∀ v : ParsedJson,
    (v.toTree g).toValue f = v ↔ ∀ x ∈ v.numbers, (g x).toValue f = .num x
  | .null | .bool _ | .str _ => by simp [toTree, Json.toValue, numbers]
  | .num x => by simp [toTree, numbers]
  | .arr items => by
      rw [toTree, Json.toValue, numbers, ParsedJson.arr.injEq]
      exact ParsedJson.toValueItems_toTreeItems_eq_iff items
  | .obj fields => by
      rw [toTree, Json.toValue, numbers, ParsedJson.obj.injEq]
      exact ParsedJson.toValueFields_toTreeFields_eq_iff fields

theorem ParsedJson.toValueItems_toTreeItems_eq_iff : ∀ items : List ParsedJson,
    Json.toValueItems f (ParsedJson.toTreeItems g items) = items
      ↔ ∀ x ∈ ParsedJson.numbersItems items, (g x).toValue f = .num x
  | [] => by simp [toTreeItems, Json.toValueItems, numbersItems]
  | v :: items => by
      rw [toTreeItems, Json.toValueItems, numbersItems, List.cons.injEq,
        ParsedJson.toValue_toTree_eq_iff v, ParsedJson.toValueItems_toTreeItems_eq_iff items,
        List.forall_mem_append]

theorem ParsedJson.toValueFields_toTreeFields_eq_iff : ∀ fields : List (String × ParsedJson),
    Json.toValueFields f (ParsedJson.toTreeFields g fields) = fields
      ↔ ∀ x ∈ ParsedJson.numbersFields fields, (g x).toValue f = .num x
  | [] => by simp [toTreeFields, Json.toValueFields, numbersFields]
  | (key, v) :: fields => by
      rw [toTreeFields, Json.toValueFields, numbersFields, List.cons.injEq, Prod.mk.injEq,
        ParsedJson.toValue_toTree_eq_iff v, ParsedJson.toValueFields_toTreeFields_eq_iff fields,
        List.forall_mem_append]
      simp only [true_and]

end

variable {f g}

mutual

/-- A tree comes back from its value if each number does. -/
theorem Json.toTree_toValue (h : ∀ q, g (f q) = .num q) : ∀ v : Json, (v.toValue f).toTree g = v
  | .null | .bool _ | .str _ => rfl
  | .num q => h q
  | .arr items => congrArg Json.arr (Json.toTreeItems_toValueItems h items)
  | .obj fields => congrArg Json.obj (Json.toTreeFields_toValueFields h fields)

theorem Json.toTreeItems_toValueItems (h : ∀ q, g (f q) = .num q) : ∀ items : List Json,
    ParsedJson.toTreeItems g (Json.toValueItems f items) = items
  | [] => rfl
  | v :: items => congrArg₂ List.cons (Json.toTree_toValue h v)
      (Json.toTreeItems_toValueItems h items)

theorem Json.toTreeFields_toValueFields (h : ∀ q, g (f q) = .num q) :
    ∀ fields : List (String × Json),
      ParsedJson.toTreeFields g (Json.toValueFields f fields) = fields
  | [] => rfl
  | (key, v) :: fields => congrArg₂ (fun v fields => (key, v) :: fields) (Json.toTree_toValue h v)
      (Json.toTreeFields_toValueFields h fields)

end

mutual

/-- The numbers of a value that was made from a tree. -/
theorem Json.mem_numbers_toValue {x : JsNumber} : ∀ {v : Json},
    x ∈ (v.toValue f).numbers → ∃ q, x = f q
  | .num q, h => ⟨q, List.mem_singleton.mp h⟩
  | .arr _, h => Json.mem_numbersItems_toValue h
  | .obj _, h => Json.mem_numbersFields_toValue h
  | .null, h | .bool _, h | .str _, h => nomatch h

theorem Json.mem_numbersItems_toValue {x : JsNumber} : ∀ {items : List Json},
    x ∈ ParsedJson.numbersItems (Json.toValueItems f items) → ∃ q, x = f q
  | _ :: _, h => (List.mem_append.mp h).elim Json.mem_numbers_toValue
      Json.mem_numbersItems_toValue
  | [], h => nomatch h

theorem Json.mem_numbersFields_toValue {x : JsNumber} : ∀ {fields : List (String × Json)},
    x ∈ ParsedJson.numbersFields (Json.toValueFields f fields) → ∃ q, x = f q
  | _ :: _, h => (List.mem_append.mp h).elim Json.mem_numbers_toValue
      Json.mem_numbersFields_toValue
  | [], h => nomatch h

end

mutual

/-- The numbers of what becomes of a value in a tree and back. -/
theorem ParsedJson.mem_numbers_toValue_toTree {x : JsNumber} : ∀ {v : ParsedJson},
    x ∈ ((v.toTree g).toValue f).numbers → ∃ y ∈ v.numbers, x ∈ ((g y).toValue f).numbers
  | .num y, h => ⟨y, List.mem_singleton.mpr rfl, h⟩
  | .arr _, h => ParsedJson.mem_numbersItems_toValue_toTree h
  | .obj _, h => ParsedJson.mem_numbersFields_toValue_toTree h
  | .null, h | .bool _, h | .str _, h => nomatch h

theorem ParsedJson.mem_numbersItems_toValue_toTree {x : JsNumber} : ∀ {items : List ParsedJson},
    x ∈ numbersItems (Json.toValueItems f (toTreeItems g items)) →
      ∃ y ∈ numbersItems items, x ∈ ((g y).toValue f).numbers
  | _ :: _, h => by
      obtain h | h := List.mem_append.mp h
      · obtain ⟨y, hy, hx⟩ := ParsedJson.mem_numbers_toValue_toTree h
        exact ⟨y, List.mem_append_left _ hy, hx⟩
      · obtain ⟨y, hy, hx⟩ := ParsedJson.mem_numbersItems_toValue_toTree h
        exact ⟨y, List.mem_append_right _ hy, hx⟩
  | [], h => nomatch h

theorem ParsedJson.mem_numbersFields_toValue_toTree {x : JsNumber} :
    ∀ {fields : List (String × ParsedJson)},
    x ∈ numbersFields (Json.toValueFields f (toTreeFields g fields)) →
      ∃ y ∈ numbersFields fields, x ∈ ((g y).toValue f).numbers
  | _ :: _, h => by
      obtain h | h := List.mem_append.mp h
      · obtain ⟨y, hy, hx⟩ := ParsedJson.mem_numbers_toValue_toTree h
        exact ⟨y, List.mem_append_left _ hy, hx⟩
      · obtain ⟨y, hy, hx⟩ := ParsedJson.mem_numbersFields_toValue_toTree h
        exact ⟨y, List.mem_append_right _ hy, hx⟩
  | [], h => nomatch h

end

end

/-! ## Reading and writing -/

/-- `JSON.parse`. -/
def ParsedJson.parse : Json → ParsedJson := Json.toValue nearestDouble

/-- The value without infinities, as it is. -/
def ParsedJson.ofJson : Json → ParsedJson := Json.toValue .finite

/-- How `JSON.stringify` writes a finite number: as a decimal that is read as
the number. -/
structure NumberText where
  literal : Rat → Rat
  reads : ∀ q, nearestDouble q = .finite q → nearestDouble (literal q) = .finite q

/-- All digits of the number. -/
def NumberText.exact : NumberText := ⟨id, fun _ h => h⟩

namespace NumberText

variable (T : NumberText)

/-- A number in `JSON.stringify`. -/
def number : JsNumber → Json
  | .finite q => .num (T.literal q)
  | _ => .null

/-- `JSON.stringify`. -/
def stringify : ParsedJson → Json := ParsedJson.toTree T.number

/-- `JSON.parse(JSON.stringify(value))`. -/
def reread (v : ParsedJson) : ParsedJson := .parse (T.stringify v)

end NumberText

/-- All numbers of a parsed value are doubles. -/
theorem ParsedJson.isDouble_parse (text : Json) : ∀ x ∈ (parse text).numbers, x.IsDouble := by
  intro x hx
  obtain ⟨q, rfl⟩ := Json.mem_numbers_toValue hx
  exact isDouble_nearestDouble q

theorem ParsedJson.isFinite_ofJson (value : Json) : ∀ x ∈ (ofJson value).numbers, x.IsFinite := by
  intro x hx
  obtain ⟨q, rfl⟩ := Json.mem_numbers_toValue hx
  trivial

theorem ParsedJson.ofJson_injective : Function.Injective ofJson :=
  Function.LeftInverse.injective
    (Json.toTree_toValue (g := NumberText.exact.number) fun _ => rfl)

/-- The values without infinities are the `Json` values. -/
theorem ParsedJson.exists_ofJson_iff (v : ParsedJson) :
    (∃ value, v = ofJson value) ↔ ∀ x ∈ v.numbers, x.IsFinite := by
  constructor
  · rintro ⟨value, rfl⟩
    exact isFinite_ofJson value
  · intro hfinite
    refine ⟨v.toTree NumberText.exact.number,
      ((ParsedJson.toValue_toTree_eq_iff .finite _ v).mpr fun x hx => ?_).symm⟩
    cases x with
    | finite q => rfl
    | nan | infinity => exact (hfinite _ hx).elim

namespace NumberText

variable (T : NumberText)

/-- A double is read back exactly if it is finite. -/
theorem toValue_number_eq_iff {x : JsNumber} (hx : x.IsDouble) :
    (T.number x).toValue nearestDouble = .num x ↔ x.IsFinite := by
  cases x with
  | finite q =>
    refine iff_of_true ?_ trivial
    rw [number, Json.toValue, T.reads q (hx q rfl)]
  | nan | infinity => exact iff_of_false nofun id

/-- A value whose numbers are doubles is read back exactly if they are all
finite. -/
theorem reread_eq_iff {v : ParsedJson} (hv : ∀ x ∈ v.numbers, x.IsDouble) :
    T.reread v = v ↔ ∀ x ∈ v.numbers, x.IsFinite :=
  (ParsedJson.toValue_toTree_eq_iff nearestDouble T.number v).trans
    (forall₂_congr fun x hx => T.toValue_number_eq_iff (hv x hx))

theorem reread_parse_eq_iff (text : Json) :
    T.reread (.parse text) = .parse text ↔ ∀ x ∈ (ParsedJson.parse text).numbers, x.IsFinite :=
  T.reread_eq_iff (ParsedJson.isDouble_parse text)

/-- What was read from a text without an infinity is read back from what is
written of it. -/
theorem reread_ofJson {text value : Json} (h : ParsedJson.parse text = .ofJson value) :
    T.reread (.ofJson value) = .ofJson value := by
  rw [← h, T.reread_parse_eq_iff, h]
  exact ParsedJson.isFinite_ofJson value

/-- What is read from a text that `JSON.stringify` wrote holds finite numbers
only. -/
theorem isFinite_reread {v : ParsedJson} (hv : ∀ x ∈ v.numbers, x.IsDouble) :
    ∀ x ∈ (T.reread v).numbers, x.IsFinite := by
  intro x hx
  obtain ⟨y, hy, hxy⟩ := ParsedJson.mem_numbers_toValue_toTree hx
  cases y with
  | finite q =>
    rw [(T.toValue_number_eq_iff (hv _ hy)).mpr trivial] at hxy
    obtain rfl := List.mem_singleton.mp hxy
    trivial
  | nan | infinity => cases hxy

end NumberText

end FlowPilot
