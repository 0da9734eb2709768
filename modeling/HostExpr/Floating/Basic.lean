/-!
Binary floating point numbers as exact data.

A finite number of a format is a sign, a significand `m` and the exponent `e` of its last place,
and denotes `± m · 2 ^ e`. The field `canonical` makes the representation unique, so two finite
numbers are equal exactly when sign, significand and exponent are. All that is not a number is the
one value `nan`.

* `Floating.scaled?` places every number but `nan` on one integer scale; comparison, `compare`, is
  comparison on that scale, so that both zeros are one number and `nan` is unordered.
* `Floating.roundQuotient` is the number nearest to a positive quotient of naturals, a tie going to
  the even significand. Every operation that has to round is an exact quotient followed by it.
-/

namespace HostExpr

-- Powers are those of natural numbers, whatever else is in scope.
attribute [local instance] instPowNat

/-- The shape of a binary floating point format. -/
structure FloatFormat where
  /-- Bits of a significand, less one; the leading bit is counted here by its weight. -/
  fractionBits : Nat
  /-- The exponent of the last place of the smallest numbers. -/
  least : Int
  /-- The number of further exponents, up to that of the last place of the largest numbers. -/
  span : Nat

namespace FloatFormat

/-- The 32-bit format: 24 significant bits. -/
def single : FloatFormat := ⟨23, -149, 253⟩

/-- The 64-bit format: 53 significant bits. -/
def double : FloatFormat := ⟨52, -1074, 2045⟩

/-- The exponent of the last place of the largest numbers. -/
def greatest (f : FloatFormat) : Int :=
  f.least + f.span

/-- The significand is in range, the exponent is in range, and no smaller exponent would do. -/
structure Canonical (f : FloatFormat) (significand : Nat) (exponent : Int) : Prop where
  significand_lt : significand < Nat.pow 2 (f.fractionBits + 1)
  least_le : f.least ≤ exponent
  le_greatest : exponent ≤ f.greatest
  normal : Nat.pow 2 f.fractionBits ≤ significand ∨ exponent = f.least

instance (f : FloatFormat) (m : Nat) (e : Int) : Decidable (f.Canonical m e) :=
  decidable_of_iff
    (m < Nat.pow 2 (f.fractionBits + 1) ∧ f.least ≤ e ∧ e ≤ f.greatest ∧
      (Nat.pow 2 f.fractionBits ≤ m ∨ e = f.least))
    ⟨fun ⟨a, b, c, d⟩ => ⟨a, b, c, d⟩, fun ⟨a, b, c, d⟩ => ⟨a, b, c, d⟩⟩

/-- Zero has its representation at the least exponent. -/
theorem canonical_zero (f : FloatFormat) : f.Canonical 0 f.least where
  significand_lt := Nat.two_pow_pos _
  least_le := Int.le_refl _
  le_greatest := by simp only [greatest]; omega
  normal := .inr rfl

end FloatFormat

inductive Floating (f : FloatFormat) where
  /-- The result of an operation that has none. -/
  | nan
  | infinite (negative : Bool)
  /-- The number `± significand · 2 ^ exponent`. -/
  | finite (negative : Bool) (significand : Nat) (exponent : Int)
      (canonical : f.Canonical significand exponent)
  deriving DecidableEq

abbrev Single := Floating .single

abbrev Double := Floating .double

namespace Floating

variable {f g : FloatFormat}

def zero (negative : Bool) : Floating f :=
  .finite negative 0 f.least f.canonical_zero

instance : Inhabited (Floating f) := ⟨zero false⟩

def isNan : Floating f → Bool
  | .nan => true
  | _ => false

def signed (negative : Bool) (n : Nat) : Int :=
  if negative then -n else n

/-- The number with its sign turned; `nan` has none. -/
def neg : Floating f → Floating f
  | .nan => .nan
  | .infinite s => .infinite !s
  | .finite s m e h => .finite (!s) m e h

/-- The number in units of the format's smallest positive number. Infinities are placed just
beyond the largest finite numbers. -/
def scaled? : Floating f → Option Int
  | .nan => none
  | .infinite s => some (signed s (Nat.pow 2 (f.fractionBits + 1 + f.span)))
  | .finite s m e _ => some (signed s (m * Nat.pow 2 (e - f.least).toNat))

/-- The order of two numbers; `nan` has no order with anything. -/
def compare (x y : Floating f) : Option Ordering :=
  match x.scaled?, y.scaled? with
  | some a, some b => some (Ord.compare a b)
  | _, _ => none

/-- Equality of numbers: the two zeros are equal and `nan` equals nothing. -/
def equal (x y : Floating f) : Bool :=
  x.compare y = some .eq

/-! ### Rounding -/

/-- The integer nearest to `a / b`, a tie going to the even one. -/
def nearestEven (a b : Nat) : Nat :=
  let q := a / b
  let r := a % b
  if 2 * r < b then q else if b < 2 * r then q + 1 else q + q % 2

/-- The number `± m · 2 ^ e` for a significand that may just have been rounded up to the next power
of two, or an infinity if the exponent is too large. -/
def ofRounded (negative : Bool) (m : Nat) (e : Int) : Floating f :=
  if h : f.Canonical m e then .finite negative m e h
  else if h : f.Canonical (m / 2) (e + 1) then .finite negative (m / 2) (e + 1) h
  else .infinite negative

/-- The largest integer `k` with `2 ^ k ≤ a / b`, for positive `a` and `b`. -/
def binaryOrder (a b : Nat) : Int :=
  let k : Int := (a.log2 : Int) - b.log2
  if b * Nat.pow 2 k.toNat ≤ a * Nat.pow 2 (-k).toNat then k else k - 1

/-- The number nearest to `± a / b` for a positive divisor, a tie going to the even significand. -/
def roundQuotient (negative : Bool) (a b : Nat) : Floating f :=
  if a = 0 then zero negative
  else
    let e := max f.least (binaryOrder a b - f.fractionBits)
    ofRounded negative (nearestEven (a * Nat.pow 2 (-e).toNat) (b * Nat.pow 2 e.toNat)) e

/-- The number nearest to `± m · 2 ^ e`. -/
def roundScaled (negative : Bool) (m : Nat) (e : Int) : Floating f :=
  roundQuotient negative (m * Nat.pow 2 e.toNat) (Nat.pow 2 (-e).toNat)

def ofInt (i : Int) : Floating f :=
  roundQuotient (i < 0) i.natAbs 1

def cast : Floating f → Floating g
  | .nan => .nan
  | .infinite s => .infinite s
  | .finite s m e _ => roundScaled s m e

/-- The integer part, kept within bounds; `nan` gives zero. -/
def truncateWithin (lo hi : Int) : Floating f → Int
  | .nan => 0
  | .infinite s => if s then lo else hi
  | .finite s m e _ =>
    max lo (min hi (signed s (m * Nat.pow 2 e.toNat / Nat.pow 2 (-e).toNat)))

end Floating

end HostExpr
