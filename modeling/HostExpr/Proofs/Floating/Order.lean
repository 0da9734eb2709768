import HostExpr.Proofs.Floating.Exactness
import Mathlib.Order.Compare

/-!
The order of floating point numbers.

A format compares its numbers on a scale of its own. That is the order of the amounts
(`compare_eq_amount`), so numbers that were moved to a format which holds them compare as before.
Numbers are equal when the order says so; `nan` is what has no order.
-/

namespace HostExpr

def Amount.compare : Amount → Amount → Option Ordering
  | .nan, _ => none
  | _, .nan => none
  | .exact p, .exact q => some (Ord.compare p q)
  | .exact _, .infinite s => some (if s then .gt else .lt)
  | .infinite s, .exact _ => some (if s then .lt else .gt)
  | .infinite s, .infinite t => some (Ord.compare t s)

namespace Floating

variable {f g : FloatFormat}

/-- Exchanging two numbers turns their order round. -/
theorem compare_swap (x y : Floating f) : y.compare x = (x.compare y).map Ordering.swap := by
  cases hx : x.scaled? with
  | none => cases hy : y.scaled? <;> simp [Floating.compare, hx, hy]
  | some a =>
    cases hy : y.scaled? with
    | none => simp [Floating.compare, hx, hy]
    | some b => simp [Floating.compare, hx, hy, Std.OrientedCmp.eq_swap (a := b) (b := a)]

/-- Two numbers have no order exactly when one of them is `nan`. -/
theorem compare_eq_none_iff {x y : Floating f} : x.compare y = none ↔ x.isNan ∨ y.isNan := by
  cases x <;> cases y <;> simp [Floating.compare, scaled?, isNan]

/-- Finite numbers are ordered as the rationals that they are. -/
theorem compare_scaled {s t : Bool} {m n : Nat} {e d least : Int} (he : least ≤ e)
    (hd : least ≤ d) :
    Ord.compare (signed s (m * Nat.pow 2 (e - least).toNat))
      (signed t (n * Nat.pow 2 (d - least).toNat)) =
        Ord.compare (rational s m e) (rational t n d) := by
  have monotone : StrictMono fun z : Int => (z : ℚ) * 2 ^ least := by
    intro a b below
    exact mul_lt_mul_of_pos_right (Int.cast_lt.mpr below) (by positivity)
  rw [rational_eq_scaled he, rational_eq_scaled hd, ← cmp_eq_compare, ← cmp_eq_compare]
  exact (monotone.cmp_map_eq _ _).symm

/-- A magnitude with any sign stands between a greater one and its negation. -/
theorem signed_between {a b : Nat} (h : a < b) (s : Bool) :
    signed true b < signed s a ∧ signed s a < signed false b := by
  cases s <;> simp [signed] <;> omega

/-- A finite number stands between the infinities. -/
theorem compare_infinite {m : Nat} {e : Int} (canonical : f.Canonical m e) (s t : Bool) :
    (finite s m e canonical).compare (infinite t) = some (if t then .gt else .lt) := by
  have between := signed_between (scaled_lt_infinite canonical) s
  cases t with
  | false => exact congrArg some (compare_lt_iff_lt.mpr between.2)
  | true => exact congrArg some (compare_gt_iff_gt.mpr between.1)

/-- The infinities are ordered by their signs. -/
theorem compare_infinities (s t : Bool) :
    (infinite s : Floating f).compare (infinite t) = some (Ord.compare t s) := by
  have between : signed true (Nat.pow 2 (f.fractionBits + 1 + f.span)) <
      signed false (Nat.pow 2 (f.fractionBits + 1 + f.span)) :=
    (signed_between (Nat.two_pow_pos _) false).1.trans (signed_between (Nat.two_pow_pos _) false).2
  cases s with
  | false =>
    cases t with
    | false => exact congrArg some (compare_eq_iff_eq.mpr rfl)
    | true => exact congrArg some (compare_gt_iff_gt.mpr between)
  | true =>
    cases t with
    | false => exact congrArg some (compare_lt_iff_lt.mpr between)
    | true => exact congrArg some (compare_eq_iff_eq.mpr rfl)

/-- **The order of a format is the order of the amounts.** -/
theorem compare_eq_amount (x y : Floating f) : x.compare y = x.amount.compare y.amount := by
  cases x with
  | nan => cases y <;> rfl
  | infinite s =>
    cases y with
    | nan => rfl
    | infinite t => exact compare_infinities s t
    | finite t n d canonical =>
      rw [compare_swap, compare_infinite canonical]
      cases s <;> rfl
  | finite s m e canonical =>
    cases y with
    | nan => rfl
    | infinite t => exact compare_infinite canonical s t
    | finite t n d canonical' =>
      exact congrArg some (compare_scaled canonical.least_le canonical'.least_le)

/-! ### Moving numbers to a format that has them -/

theorem rational_eq_ite (s : Bool) (m : Nat) (e : Int) :
    rational s m e = if s then -((m : ℚ) * 2 ^ e) else m * 2 ^ e := by
  cases s <;> simp [rational, signed]

/-- A number that is moved to a format with a number of its amount keeps its amount. -/
theorem amount_cast_of_amount {x : Floating f} {y : Floating g} (same : y.amount = x.amount) :
    (y.cast : Floating f).amount = x.amount := by
  cases x <;> cases y <;> try cases same
  case nan.nan => rfl
  case infinite.infinite.refl => rfl
  case finite.finite s m e canonical t n d canonical' =>
    have amounts : rational t n d = rational s m e := Amount.exact.inj same
    have magnitudes : (n : ℚ) * 2 ^ d = m * 2 ^ e := by
      rw [← abs_rational t, ← abs_rational s, amounts]
    have quotient : ((n * Nat.pow 2 d.toNat : Nat) : ℚ) =
        (Nat.pow 2 (-d).toNat : Nat) * (m * 2 ^ e) := by
      rw [← magnitudes, Nat.cast_mul, natCast_pow_two, natCast_pow_two, ← zpow_mul_toNat_neg]
      ring
    have divisor : Nat.pow 2 (-d).toNat ≠ 0 := (Nat.two_pow_pos _).ne'
    have rounded := amount_roundQuotient (f := f) t divisor canonical.holds quotient
    rw [Floating.cast, roundScaled, rounded, amount, ← amounts, rational_eq_ite, rational_eq_ite,
      magnitudes]

/-- Singles are ordered as the doubles that they are moved to. -/
theorem compare_toDouble (x y : Single) : (x.cast : Double).compare y.cast = x.compare y := by
  rw [compare_eq_amount, amount_toDouble, amount_toDouble, ← compare_eq_amount]

/-- A quotient that is rounded is never `nan`. -/
theorem isNan_roundQuotient (negative : Bool) (a b : Nat) :
    (roundQuotient negative a b : Floating f).isNan = false := by
  unfold roundQuotient
  split
  · rfl
  · dsimp only
    unfold ofRounded
    split
    · rfl
    · split <;> rfl

end Floating

end HostExpr
