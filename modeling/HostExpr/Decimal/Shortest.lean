import HostExpr.Floating.Basic

/-!
The shortest decimal that reads back as a given floating point number.

The reals that round to a positive finite number form an interval (`Interval`), closed exactly when
the significand is even. `shortest` looks for the coarsest decimal grid with a point in it, next to
the number; of two such points it takes the nearer, and of two equally near ones the larger.
-/

namespace HostExpr

-- Powers are those of natural numbers, whatever else is in scope.
attribute [local instance] instPowNat

/-- The number `digits · 10 ^ exponent`. -/
structure Decimal where
  digits : Nat
  exponent : Int
  deriving DecidableEq

namespace Decimal

/-- The reals that round to one number, as numerators over one denominator. -/
structure Interval where
  low : Nat
  value : Nat
  high : Nat
  denominator : Nat
  /-- Whether the ends belong to it. -/
  closed : Bool

/-- The interval around `m · 2 ^ e`. Below a power of two the numbers lie twice as close. -/
def Interval.around (f : FloatFormat) (m : Nat) (e : Int) : Interval :=
  let below := if m = Nat.pow 2 f.fractionBits ∧ f.least < e then 1 else 2
  let unit := Nat.pow 2 (e - 2).toNat
  { low := (4 * m - below) * unit
    value := 4 * m * unit
    high := (4 * m + 2) * unit
    denominator := Nat.pow 2 (2 - e).toNat
    closed := m % 2 = 0 }

/-- Whether the interval contains `d · 10 ^ k`. -/
def Interval.contains (i : Interval) (d : Nat) (k : Int) : Bool :=
  let point := d * Nat.pow 10 k.toNat * i.denominator
  let scale := Nat.pow 10 (-k).toNat
  if i.closed then i.low * scale ≤ point && point ≤ i.high * scale
  else i.low * scale < point && point < i.high * scale

/-- The greatest `d` with `d · 10 ^ k` not above the value. -/
def Interval.floor (i : Interval) (k : Int) : Nat :=
  i.value * Nat.pow 10 (-k).toNat / (i.denominator * Nat.pow 10 k.toNat)

/-- Whether the value lies nearer to `d · 10 ^ k` than to the next point of that grid. -/
def Interval.prefersFloor (i : Interval) (d : Nat) (k : Int) : Bool :=
  2 * i.value * Nat.pow 10 (-k).toNat < (2 * d + 1) * Nat.pow 10 k.toNat * i.denominator

/-- The point of the grid of multiples of `10 ^ k` that lies in the interval next to the value. -/
def Interval.gridPoint? (i : Interval) (k : Int) : Option Nat :=
  let d := i.floor k
  match i.contains d k, i.contains (d + 1) k with
  | true, true => some (if i.prefersFloor d k then d else d + 1)
  | true, false => some d
  | false, true => some (d + 1)
  | false, false => none

/-- The least `k` with `a / b < 10 ^ k`, for positive `a` and `b`. -/
def order (a b : Nat) : Int :=
  if b ≤ a then (Nat.toDigits 10 (a / b)).length
  else 1 - ((Nat.toDigits 10 ((b + a - 1) / a - 1)).length : Int)

/-- A decimal without a trailing zero, if `d` ends in at most one. -/
def ofGridPoint (d : Nat) (k : Int) : Decimal :=
  if d % 10 = 0 then ⟨d / 10, k + 1⟩ else ⟨d, k⟩

/-- Enough digits to tell apart the numbers of any format here. -/
def digitLimit : Nat := 17

/-- The shortest decimal that rounds to `m · 2 ^ e`. -/
def shortest (f : FloatFormat) (m : Nat) (e : Int) : Decimal :=
  let i := Interval.around f m e
  let top := order i.value i.denominator
  let grids := (List.range digitLimit).map fun n => top - (n + 1 : Nat)
  match grids.findSome? fun k => (i.gridPoint? k).map fun d => ofGridPoint d k with
  | some d => d
  | none => ⟨i.floor (top - digitLimit), top - digitLimit⟩

end Decimal

end HostExpr
