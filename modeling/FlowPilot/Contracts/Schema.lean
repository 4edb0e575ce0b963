import FlowPilot.Json
import Mathlib.Algebra.GroupWithZero.Nat

/-!
# Schema validation

The part of the validation library the contracts are written in. A schema
reads a possibly missing JSON value and either returns the parsed value or
every issue it found, each with the path it names. Values a schema accepts
are typed so that they satisfy its bounds: `BoundedString lo hi` is what
`z.string().min(lo).max(hi)` returns.

The library's own wording of an issue is not modelled (`message` is `none`
there); the messages the repository sets are.
-/

namespace FlowPilot

/-! ## Issues and results -/

inductive PathSegment where
  | key (name : String)
  | index (i : Nat)
deriving DecidableEq, Repr

inductive IssueCode where
  | invalidType
  | tooSmall
  | tooBig
  | invalidFormat
  | invalidValue
  | invalidUnion
  | unrecognizedKeys
  | custom
deriving DecidableEq, Repr

structure Issue where
  code : IssueCode
  path : List PathSegment
  message : Option String
deriving DecidableEq, Repr

/-- The result of `safeParse`: the parsed value, or the issues found. -/
inductive Parsed (α : Type) where
  | ok (value : α)
  | issues (found : List Issue)

namespace Parsed

variable {α β : Type}

def map (f : α → β) : Parsed α → Parsed β
  | .ok a => .ok (f a)
  | .issues found => .issues found

/-- Two parses side by side: the issues of both are reported. -/
def seq : Parsed (α → β) → Parsed α → Parsed β
  | .ok f, .ok a => .ok (f a)
  | .ok _, .issues found => .issues found
  | .issues found, .ok _ => .issues found
  | .issues found, .issues found' => .issues (found ++ found')

instance : Applicative Parsed where
  pure := .ok
  seq f x := seq f (x ())

/-- A check made on the value once it has been parsed. -/
def andThen : Parsed α → (α → Parsed β) → Parsed β
  | .ok a, f => f a
  | .issues found, _ => .issues found

/-- Report the issues of a part under its place in the whole. -/
def at_ (segment : PathSegment) : Parsed α → Parsed α
  | .ok a => .ok a
  | .issues found => .issues (found.map fun i => { i with path := segment :: i.path })

/-- One issue at the value itself. -/
def fail (code : IssueCode) (message : Option String) : Parsed α :=
  .issues [⟨code, [], message⟩]

theorem andThen_eq_ok {p : Parsed α} {f : α → Parsed β} {b : β} :
    p.andThen f = .ok b ↔ ∃ a, p = .ok a ∧ f a = .ok b := by
  cases p with
  | ok a => simp [andThen]
  | issues found => simp [andThen]

end Parsed

/-- A schema: `none` is `undefined`. -/
abbrev Schema (α : Type) := Option Json → Parsed α

/-! ## Strings -/

/-- `value.length`: the number of UTF-16 code units. -/
def utf16Length (s : String) : Nat :=
  (s.toList.map fun c => if 0x10000 ≤ c.toNat then 2 else 1).sum

/-- What `z.string().min(lo).max(hi)` returns. -/
def BoundedString (lo hi : Nat) : Type :=
  { s : String // lo ≤ utf16Length s ∧ utf16Length s ≤ hi }

namespace Schema

variable {α β : Type}

/-- `z.string()`. -/
def string : Schema String
  | some (.str s) => .ok s
  | _ => .fail .invalidType none

/-- `z.string().min(lo).max(hi)`. -/
def boundedString (lo hi : Nat) : Schema (BoundedString lo hi) := fun v =>
  (string v).andThen fun s =>
    if hlo : lo ≤ utf16Length s then
      if hhi : utf16Length s ≤ hi then .ok ⟨s, hlo, hhi⟩
      else .fail .tooBig none
    else .fail .tooSmall none

/-- `z.enum(values)`, with the type that lists the values. -/
def enumOf (values : List (String × α)) : Schema α := fun v =>
  match v with
  | some (.str s) =>
      match values.lookup s with
      | some a => .ok a
      | none => .fail .invalidValue none
  | _ => .fail .invalidValue none

/-! ## Numbers -/

/-- `z.number()` on a JSON value. -/
def number : Schema Rat
  | some (.num q) => .ok q
  | _ => .fail .invalidType none

/-- `z.number().min(lo).max(hi)`. -/
def boundedNumber (lo hi : Rat) : Schema { q : Rat // lo ≤ q ∧ q ≤ hi } := fun v =>
  (number v).andThen fun q =>
    if hlo : lo ≤ q then
      if hhi : q ≤ hi then .ok ⟨q, hlo, hhi⟩
      else .fail .tooBig none
    else .fail .tooSmall none

/-- `z.number().int().min(lo).max(hi)` for natural bounds. -/
def boundedInt (lo hi : Nat) : Schema { n : Nat // lo ≤ n ∧ n ≤ hi } := fun v =>
  (number v).andThen fun q =>
    if q.den = 1 then
      if h : lo ≤ q.num.toNat ∧ q.num.toNat ≤ hi then
        if 0 ≤ q.num then .ok ⟨q.num.toNat, h⟩
        else .fail .tooSmall none
      else .fail (if q.num < (lo : Int) then .tooSmall else .tooBig) none
    else .fail .invalidType none

/-! ## Wrappers and collections -/

/-- `.optional()`. -/
def optional (s : Schema α) : Schema (Option α)
  | none => .ok none
  | some v => (s (some v)).map some

/-- `.default(value)`. -/
def default (value : α) (s : Schema α) : Schema α
  | none => .ok value
  | some v => s (some v)

/-- The elements of an array, each reported under its index. -/
def elements (s : Schema α) : Nat → List Json → Parsed (List α)
  | _, [] => .ok []
  | i, v :: vs => List.cons <$> (s (some v)).at_ (.index i) <*> elements s (i + 1) vs

/-- `z.array(s).min(lo).max(hi)`. -/
def boundedArray (s : Schema α) (lo hi : Nat) :
    Schema { items : List α // lo ≤ items.length ∧ items.length ≤ hi } := fun v =>
  match v with
  | some (.arr vs) =>
      (elements s 0 vs).andThen fun items =>
        if hlo : lo ≤ items.length then
          if hhi : items.length ≤ hi then .ok ⟨items, hlo, hhi⟩
          else .fail .tooBig none
        else .fail .tooSmall none
  | _ => .fail .invalidType none

/-- The values of an object, each reported under its key. -/
def values (s : Schema α) : List (String × Json) → Parsed (List (String × α))
  | [] => .ok []
  | (k, v) :: fields =>
      (fun a rest => (k, a) :: rest) <$> (s (some v)).at_ (.key k) <*> values s fields

/-- `z.record(z.string(), s)`. -/
def record (s : Schema α) : Schema (List (String × α))
  | some (.obj fields) => values s fields
  | _ => .fail .invalidType none

/-- `z.unknown()` as the value of a record. -/
def unknown : Schema Json
  | some v => .ok v
  | none => .ok .null

/-! ## Objects -/

/-- One field of an object, reported under its key. -/
def field (fields : List (String × Json)) (k : String) (s : Schema α) : Parsed α :=
  (s (fields.lookup k)).at_ (.key k)

/-- `.strict()`: no key outside `keys`. -/
def noOtherKeys (fields : List (String × Json)) (keys : List String) : Parsed Unit :=
  if fields.all (fun f => keys.contains f.1) then .ok () else .fail .unrecognizedKeys none

/-- `z.object({ ... }).strict()`, the fields read by `body`. -/
def strictObject (keys : List String) (body : List (String × Json) → Parsed α) : Schema α
  | some (.obj fields) => (fun a _ => a) <$> body fields <*> noOtherKeys fields keys
  | _ => .fail .invalidType none

end Schema

end FlowPilot
