import FlowPilot.Lib.Strip
import Mathlib.Data.Int.Log
import Mathlib.Data.Rat.Floor

/-!
# The numbers of JavaScript

Numbers without the sign of zero: a finite double is the rational it stands
for. `nearestDouble` rounds to the nearest double, ties to the even one;
sums, products and quotients are rounded so (`add`, `mul`, `divNat`).
`ofString` is the conversion of a string to a number (`Number(s)`), and
`toString` the conversion of a finite number to a string, which takes the
fewest digits that still round to the number.

A number of 53 bits is exact (`nearestDouble_mul_zpow`), and so what was
rounded once is not changed again (`nearestDouble_idem`).

What a finite number is written as begins with a digit or a minus sign
(`exists_head_toString`).
-/

/-- A number: what a double is, up to the sign of zero. -/
inductive JsNumber where
  | nan
  | infinity (negative : Bool)
  | finite (q : Rat)
deriving DecidableEq, Repr

namespace JsNumber

/-! ## Order and sign -/

/-- `x < y`; nothing is less or greater than `NaN`. -/
def lt : JsNumber → JsNumber → Bool
  | .nan, _ | _, .nan => false
  | .infinity true, y => y ≠ .infinity true
  | .infinity false, _ => false
  | .finite _, .infinity negative => !negative
  | .finite x, .finite y => x < y

def neg : JsNumber → JsNumber
  | .nan => .nan
  | .infinity negative => .infinity (!negative)
  | .finite q => .finite (-q)

/-- The natural number, if `Number.isInteger(x)` and `x >= 0`. -/
def natural? : JsNumber → Option Nat
  | .finite q => if q.den = 1 ∧ 0 ≤ q.num then some q.num.toNat else none
  | _ => none

/-! ## Rounding -/

/-- The nearest integer, of two the even one. -/
def roundHalfEven (x : Rat) : Int :=
  let lower := ⌊x⌋
  let rest := x - lower
  if rest < 1 / 2 then lower
  else if 1 / 2 < rest then lower + 1
  else if lower % 2 = 0 then lower
  else lower + 1

/-- The nearest double: 53 bits from the leading one on, none below
`2 ^ (-1074)`, and infinity from `2 ^ 1024` on. -/
def nearestDouble (x : Rat) : JsNumber :=
  let exponent := max (Int.log 2 |x| - 52) (-1074)
  let rounded := roundHalfEven (x / (2 : Rat) ^ exponent) * (2 : Rat) ^ exponent
  if |rounded| < 2 ^ 1024 then .finite rounded else .infinity (x < 0)

/-! ### Doubles -/

theorem roundHalfEven_intCast (n : Int) : roundHalfEven n = n := by
  simp [roundHalfEven]

theorem roundHalfEven_mem (x : Rat) :
    roundHalfEven x = ⌊x⌋ ∨ roundHalfEven x = ⌊x⌋ + 1 ∧ (⌊x⌋ : Rat) < x := by
  unfold roundHalfEven
  dsimp only
  split
  · exact Or.inl rfl
  · rename_i hhalf
    have hlt : (⌊x⌋ : Rat) < x := by linarith
    split
    · exact Or.inr ⟨rfl, hlt⟩
    · split
      · exact Or.inl rfl
      · exact Or.inr ⟨rfl, hlt⟩

/-- Rounding keeps bounds that are integers. -/
theorem abs_roundHalfEven_le {x : Rat} {n : Int} (h : |x| ≤ n) : |roundHalfEven x| ≤ n := by
  obtain ⟨hlower, hupper⟩ := abs_le.mp h
  have hfloor : -n ≤ ⌊x⌋ := Int.le_floor.mpr (by push_cast; exact hlower)
  have hle : ⌊x⌋ ≤ n := Int.cast_le.mp ((Int.floor_le x).trans hupper)
  rw [abs_le]
  rcases roundHalfEven_mem x with heq | ⟨heq, hlt⟩
  · rw [heq]
    exact ⟨hfloor, hle⟩
  · have hlt' : ⌊x⌋ < n := Int.cast_lt.mp (hlt.trans_le hupper)
    omega

/-- A number of 53 bits is a double, unless it is too large. -/
theorem nearestDouble_mul_zpow {n e : Int} (hn : |n| < 2 ^ 53) (he : -1074 ≤ e)
    (hsize : |(n : Rat) * 2 ^ e| < 2 ^ 1024) :
    nearestDouble (n * 2 ^ e) = .finite (n * 2 ^ e) := by
  have hexact : ∀ E : Int, (n = 0 ∨ E ≤ e) →
      (roundHalfEven ((n : Rat) * 2 ^ e / 2 ^ E) : Rat) * 2 ^ E = n * 2 ^ e := by
    rintro E (rfl | hE)
    · simp [roundHalfEven]
    · obtain ⟨k, rfl⟩ := Int.le.dest hE
      have hquotient : (n : Rat) * 2 ^ (E + k) / 2 ^ E = (n * 2 ^ k : Int) := by
        rw [zpow_add₀ two_ne_zero]
        push_cast
        field_simp
        simp
      rw [hquotient, roundHalfEven_intCast, ← hquotient]
      field_simp
  have hexponent : n = 0 ∨ max (Int.log 2 |(n : Rat) * 2 ^ e| - 52) (-1074) ≤ e := by
    rcases eq_or_ne n 0 with h0 | h0
    · exact Or.inl h0
    · refine Or.inr (max_le ?_ he)
      have htwo : (0 : Rat) < 2 ^ e := zpow_pos two_pos e
      have hpos : (0 : Rat) < |(n : Rat) * 2 ^ e| :=
        abs_pos.mpr (mul_ne_zero (Int.cast_ne_zero.mpr h0) htwo.ne')
      have hbound : |(n : Rat) * 2 ^ e| < (2 : ℕ) ^ (e + 53) := by
        have hn' : |(n : Rat)| < 2 ^ (53 : Int) := by exact_mod_cast hn
        rw [abs_mul, abs_of_pos htwo, add_comm e, Nat.cast_ofNat, zpow_add₀ two_ne_zero]
        exact mul_lt_mul_of_pos_right hn' htwo
      have hlog := (Int.lt_zpow_iff_log_lt (by decide) hpos).mp hbound
      omega
  unfold nearestDouble
  simp only [hexact _ hexponent, hsize, if_true]

/-- What was rounded is a double. -/
theorem nearestDouble_idem {x q : Rat} (h : nearestDouble x = .finite q) :
    nearestDouble q = .finite q := by
  unfold nearestDouble at h
  dsimp only at h
  split at h
  · rename_i hsize
    cases h
    generalize hE : max (Int.log 2 |x| - 52) (-1074) = E at hsize
    have hbound : |x / 2 ^ E| ≤ ((2 ^ 53 : Int) : Rat) := by
      have hlog : |x| < (2 : ℕ) ^ (Int.log 2 |x| + 1) := Int.lt_zpow_succ_log_self (by decide) _
      have hpow : ((2 : ℕ) : Rat) ^ (Int.log 2 |x| + 1) ≤ 2 ^ (53 + E) := by
        rw [Nat.cast_ofNat]
        exact zpow_le_zpow_right₀ one_le_two (by omega)
      have htwo : (0 : Rat) < 2 ^ E := zpow_pos two_pos E
      rw [abs_div, abs_of_pos htwo, div_le_iff₀ htwo]
      refine (hlog.le.trans hpow).trans (le_of_eq ?_)
      rw [zpow_add₀ two_ne_zero]
      norm_num
    have hn := abs_roundHalfEven_le hbound
    generalize roundHalfEven (x / 2 ^ E) = n at hn hsize
    have hEmin : -1074 ≤ E := hE ▸ le_max_right _ _
    rcases lt_or_eq_of_le hn with hlt | heq
    · exact nearestDouble_mul_zpow hlt hEmin hsize
    · -- the bound itself is one bit, with a larger exponent
      obtain ⟨sign, hsign, rfl⟩ : ∃ sign : Int, |sign| = 1 ∧ n = sign * 2 ^ 53 := by
        rcases abs_eq (by norm_num) |>.mp heq with rfl | rfl
        · exact ⟨1, rfl, rfl⟩
        · exact ⟨-1, rfl, rfl⟩
      have hshift : ((sign * 2 ^ 53 : Int) : Rat) * 2 ^ E = sign * 2 ^ (E + 53) := by
        rw [add_comm, zpow_add₀ two_ne_zero]
        push_cast
        ring
      rw [hshift] at hsize ⊢
      exact nearestDouble_mul_zpow (by rw [hsign]; decide) (by omega) hsize
  · cases h

/-- Neither an infinity nor `NaN`. -/
def IsFinite : JsNumber → Prop
  | .finite _ => True
  | _ => False

instance : DecidablePred IsFinite
  | .finite _ => isTrue trivial
  | .nan | .infinity _ => isFalse id

/-- If the number is finite, it is a double. -/
def IsDouble (x : JsNumber) : Prop := ∀ q, x = .finite q → nearestDouble q = x

theorem isDouble_nearestDouble (x : Rat) : (nearestDouble x).IsDouble := by
  intro q hq
  rw [hq]
  exact nearestDouble_idem hq

theorem nearestDouble_natCast {n : Nat} (h : n < 2 ^ 53) : nearestDouble n = .finite n := by
  have hn : |(n : Int)| < 2 ^ 53 := by
    rw [abs_of_nonneg (Int.natCast_nonneg n)]
    exact_mod_cast h
  have hsize : |((n : Int) : Rat) * 2 ^ (0 : Int)| < 2 ^ 1024 := by
    have hlarge : (2 : Rat) ^ 53 < 2 ^ 1024 := pow_lt_pow_right₀ one_lt_two (by decide)
    have hcast : (n : Rat) < 2 ^ 53 := by exact_mod_cast h
    rw [zpow_zero, mul_one, Int.cast_natCast, abs_of_nonneg (Nat.cast_nonneg n)]
    exact hcast.trans hlarge
  simpa using nearestDouble_mul_zpow hn (by decide) hsize

/-- A natural number is one after rounding, as long as it has 53 bits. -/
theorem natural?_nearestDouble {n : Nat} (h : n < 2 ^ 53) :
    (nearestDouble n).natural? = some n := by
  simp [nearestDouble_natCast h, natural?]

/-! ## Arithmetic -/

/-- `x + y`. -/
def add : JsNumber → JsNumber → JsNumber
  | .finite x, .finite y => nearestDouble (x + y)
  | .infinity x, .infinity y => if x = y then .infinity x else .nan
  | .infinity x, .finite _ => .infinity x
  | .finite _, .infinity y => .infinity y
  | _, _ => .nan

/-- `x * y`. -/
def mul : JsNumber → JsNumber → JsNumber
  | .finite x, .finite y => nearestDouble (x * y)
  | .infinity x, .infinity y => .infinity (x != y)
  | .infinity x, .finite y => if y = 0 then .nan else .infinity (x != decide (y < 0))
  | .finite x, .infinity y => if x = 0 then .nan else .infinity (y != decide (x < 0))
  | _, _ => .nan

/-- `x / n` for a positive integer `n`. -/
def divNat : JsNumber → Nat → JsNumber
  | .finite x, n => nearestDouble (x / n)
  | x, _ => x

/-! ## From strings -/

/-- The value of a digit in a radix up to 16. -/
def digitValue (c : Char) : Option Nat :=
  if c.isDigit then some (c.toNat - '0'.toNat)
  else if 'a' ≤ c ∧ c ≤ 'f' then some (c.toNat - 'a'.toNat + 10)
  else if 'A' ≤ c ∧ c ≤ 'F' then some (c.toNat - 'A'.toNat + 10)
  else none

/-- The value of a non-empty run of digits and of nothing else. -/
def digitsValue (radix : Nat) : List Char → Option Nat
  | [] => none
  | digits =>
      digits.foldl (fun value c => value.bind fun value => (digitValue c).bind fun digit =>
        if digit < radix then some (radix * value + digit) else none) (some 0)

/-- `e`, a sign and digits, or nothing at all. -/
def exponentPart : List Char → Option Int
  | [] => some 0
  | c :: rest =>
      if c = 'e' ∨ c = 'E' then
        match rest with
        | '-' :: digits => (digitsValue 10 digits).map fun n => -n
        | '+' :: digits => (digitsValue 10 digits).map fun n => n
        | digits => (digitsValue 10 digits).map fun n => n
      else none

/-- A decimal literal without a sign. -/
def unsignedDecimal (literal : List Char) : Option JsNumber :=
  if literal = "Infinity".toList then some (.infinity false)
  else
    let whole := literal.takeWhile Char.isDigit
    let (fraction, rest) := match literal.dropWhile Char.isDigit with
      | '.' :: rest => (rest.takeWhile Char.isDigit, rest.dropWhile Char.isDigit)
      | rest => ([], rest)
    (digitsValue 10 (whole ++ fraction)).bind fun value =>
      (exponentPart rest).map fun (exponent : Int) =>
        nearestDouble (value * (10 : Rat) ^ (exponent - fraction.length))

/-- A binary, octal or hexadecimal literal. -/
def nonDecimal : List Char → Option JsNumber
  | '0' :: c :: digits =>
      let radix? := if c = 'b' ∨ c = 'B' then some 2 else if c = 'o' ∨ c = 'O' then some 8
        else if c = 'x' ∨ c = 'X' then some 16 else none
      radix?.bind fun radix => (digitsValue radix digits).map fun value => nearestDouble value
  | _ => none

/-- `Number(s)`, with `isSpace` for white space and line ends. -/
def ofString (isSpace : Char → Bool) (s : String) : JsNumber :=
  match Strip.strip isSpace s.toList with
  | [] => .finite 0
  | literal =>
      let decimal := match literal with
        | '-' :: rest => (unsignedDecimal rest).map neg
        | '+' :: rest => unsignedDecimal rest
        | rest => unsignedDecimal rest
      ((nonDecimal literal).or decimal).getD .nan

/-! ## To strings -/

/-- A decimal with digits `digits`, the point `point` places after the first
one begins. -/
structure Decimal where
  digits : Nat
  places : Nat
  point : Int

namespace Decimal

def value (d : Decimal) : Rat := d.digits * (10 : Rat) ^ (d.point - d.places)

/-- The decimals of `places` digits next to a positive number: the one that
is not above it and the one after. -/
def neighbours (x : Rat) (places : Nat) : List Decimal :=
  let point := Int.log 10 x + 1
  let lower := ⌊x / (10 : Rat) ^ (point - places)⌋.toNat
  [⟨lower, places, point⟩,
    if lower + 1 = 10 ^ places then ⟨10 ^ (places - 1), places, point + 1⟩
    else ⟨lower + 1, places, point⟩]

/-- The closer of two decimals, of two equally close ones the even one. -/
def closer (x : Rat) (a b : Decimal) : Decimal :=
  if |a.value - x| < |b.value - x| then a
  else if |b.value - x| < |a.value - x| then b
  else if a.digits % 2 = 0 then a
  else b

/-- The decimal of fewest digits, no more than 17, that rounds to the number
`x` rounds to; of several the closest. -/
def shortest (x : Rat) : Decimal :=
  let fitting := fun places => (neighbours x places).filter fun d =>
    nearestDouble d.value = nearestDouble x
  match (List.range 17).find? fun i => fitting (i + 1) ≠ [] with
  | some i => (fitting (i + 1)).foldl (closer x) ((fitting (i + 1)).headD ⟨0, 1, 1⟩)
  | none => (neighbours x 17).headD ⟨0, 1, 1⟩

end Decimal

/-- The digits `ds` with the point after `n` of them, by the four cases of
the standard. -/
def placePoint (ds : List Char) (n : Int) : List Char :=
  if ds.length ≤ n ∧ n ≤ 21 then ds ++ List.replicate (n - ds.length).toNat '0'
  else if 0 < n ∧ n ≤ 21 then ds.take n.toNat ++ '.' :: ds.drop n.toNat
  else if -6 < n ∧ n ≤ 0 then '0' :: '.' :: List.replicate (-n).toNat '0' ++ ds
  else
    let exponent := 'e' :: (if n - 1 < 0 then '-' else '+') :: Nat.toDigits 10 (n - 1).natAbs
    match ds with
    | [d] => d :: exponent
    | d :: ds => d :: '.' :: ds ++ exponent
    | [] => exponent

/-- `String(q)`. -/
def toString (q : Rat) : String :=
  if q = 0 then "0"
  else
    let shortest := Decimal.shortest |q|
    let written := placePoint (Nat.toDigits 10 shortest.digits) shortest.point
    String.ofList (if q < 0 then '-' :: written else written)

/-! ### The first character -/

/-- What a number may begin with. -/
def isHead (c : Char) : Bool := c.isDigit || c = '-'

/-- Placing the point keeps a digit in front. -/
theorem exists_head_placePoint {ds : List Char} (hne : ds ≠ [])
    (hdigits : ∀ c ∈ ds, c.isDigit = true) (n : Int) :
    ∃ c rest, placePoint ds n = c :: rest ∧ c.isDigit = true := by
  obtain ⟨d, ds, rfl⟩ := List.exists_cons_of_ne_nil hne
  have hd : d.isDigit = true := hdigits d List.mem_cons_self
  unfold placePoint
  split
  · exact ⟨d, _, rfl, hd⟩
  · split
    · rename_i hpoint
      obtain ⟨k, hk⟩ : ∃ k, n.toNat = k + 1 := ⟨n.toNat - 1, by omega⟩
      rw [hk, List.take_succ_cons]
      exact ⟨d, _, rfl, hd⟩
    · split
      · exact ⟨'0', _, rfl, by decide⟩
      · cases ds with
        | nil => exact ⟨d, _, rfl, hd⟩
        | cons d' ds => exact ⟨d, _, rfl, hd⟩

theorem exists_head_toString (q : Rat) :
    ∃ c rest, (toString q).toList = c :: rest ∧ isHead c = true := by
  unfold toString
  split
  · exact ⟨'0', [], rfl, by decide⟩
  · obtain ⟨c, rest, hwritten, hc⟩ := exists_head_placePoint
      (Nat.toDigits_ne_nil (n := (Decimal.shortest |q|).digits) (b := 10))
      (fun c hc => Nat.isDigit_of_mem_toDigits (by decide) (by decide) hc)
      (Decimal.shortest |q|).point
    split
    · exact ⟨'-', c :: rest, by simp [hwritten], by decide⟩
    · exact ⟨c, rest, by simp [hwritten], by simp [isHead, hc]⟩

/-- No number is written as a text with another first character, or without
one. -/
theorem toString_ne {s : String} (hs : s.toList.head?.any isHead = false) (q : Rat) :
    toString q ≠ s := by
  rintro rfl
  obtain ⟨c, rest, hlist, hc⟩ := exists_head_toString q
  simp [hlist, hc] at hs

example : toString (1 / 5) = "0.2" := by decide +kernel

end JsNumber
