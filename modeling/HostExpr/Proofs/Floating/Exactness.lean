import HostExpr.Proofs.Floating.Denotation
import Mathlib.Algebra.Order.Floor.Semifield
import Mathlib.Data.Rat.Floor

/-!
Where rounding changes nothing.

`roundQuotient` gives a quotient back unchanged whenever the format has room for it
(`amount_roundQuotient`), as the exponent that it chooses is one at which the format has that room
(`canonical_of_holds`). Hence widening a number keeps its amount (`amount_cast`), and so does
turning the integer part of a number into a number of the same format (`amount_ofInt_truncated`):
dropping the fraction of a number needs no more places than the number has.
-/

namespace HostExpr

/-- The format has a place for `m · 2 ^ e`, though maybe under a smaller exponent. -/
structure FloatFormat.Holds (f : FloatFormat) (m : Nat) (e : Int) : Prop where
  significand_lt : m < Nat.pow 2 (f.fractionBits + 1)
  least_le : f.least ≤ e
  le_greatest : e ≤ f.greatest

theorem FloatFormat.Canonical.holds {f : FloatFormat} {m : Nat} {e : Int} (h : f.Canonical m e) :
    f.Holds m e :=
  ⟨h.significand_lt, h.least_le, h.le_greatest⟩

/-- The format holds integers, up to the bounds of the integer kinds in magnitude. -/
structure FloatFormat.Covers (f : FloatFormat) : Prop where
  least_le : f.least ≤ 0
  le_greatest : 63 ≤ f.greatest

theorem FloatFormat.single_covers : single.Covers :=
  ⟨by decide, by decide⟩

theorem FloatFormat.double_covers : double.Covers :=
  ⟨by decide, by decide⟩

namespace Floating

variable {f g : FloatFormat}

/-! ### Powers of two on both sides of a quotient -/

theorem natCast_pow_two (k : Nat) : ((Nat.pow 2 k : Nat) : ℚ) = 2 ^ k :=
  Nat.cast_pow 2 k

/-- A power of two is a quotient of natural ones, of which one is `1`. -/
theorem zpow_mul_toNat_neg (e : Int) : (2 : ℚ) ^ e * 2 ^ (-e).toNat = 2 ^ e.toNat := by
  rw [← zpow_natCast, ← zpow_natCast, ← zpow_add₀ two_ne_zero]
  congr 1
  omega

/-- A natural inequality of quotients, read in the rationals. -/
theorem le_shifted_iff {a b : Nat} (e : Int) :
    b * Nat.pow 2 e.toNat ≤ a * Nat.pow 2 (-e).toNat ↔ (b : ℚ) * 2 ^ e ≤ a := by
  have positive : (0 : ℚ) < 2 ^ (-e).toNat := by positivity
  rw [← mul_le_mul_iff_left₀ positive, mul_assoc, zpow_mul_toNat_neg,
    ← Nat.cast_le (α := ℚ), Nat.cast_mul, Nat.cast_mul, natCast_pow_two, natCast_pow_two]

/-- A natural equation of quotients, read in the rationals. -/
theorem eq_shifted_iff {a b : Nat} (e : Int) :
    a * Nat.pow 2 (-e).toNat = b * Nat.pow 2 e.toNat ↔ (a : ℚ) = b * 2 ^ e := by
  have positive : (2 : ℚ) ^ (-e).toNat ≠ 0 := by positivity
  rw [← mul_left_inj' positive, mul_assoc, zpow_mul_toNat_neg,
    ← Nat.cast_inj (R := ℚ), Nat.cast_mul, Nat.cast_mul, natCast_pow_two, natCast_pow_two]

/-! ### Rounding what needs none -/

/-- A positive natural lies between the powers of two of its logarithm. -/
theorem log2_bounds {a : Nat} (pos : a ≠ 0) :
    (2 : ℚ) ^ (a.log2 : Int) ≤ a ∧ (a : ℚ) < 2 ^ ((a.log2 : Int) + 1) := by
  constructor
  · rw [zpow_natCast]
    exact_mod_cast Nat.log2_self_le pos
  · rw [← Nat.cast_succ, zpow_natCast]
    exact_mod_cast Nat.lt_log2_self

/-- **The binary order of a quotient**: the quotient lies from its power of two up to the next. -/
theorem binaryOrder_bounds {a b : Nat} (ha : a ≠ 0) (hb : b ≠ 0) :
    b * (2 : ℚ) ^ binaryOrder a b ≤ a ∧ (a : ℚ) < b * 2 ^ (binaryOrder a b + 1) := by
  obtain ⟨a_ge, a_lt⟩ := log2_bounds ha
  obtain ⟨b_ge, b_lt⟩ := log2_bounds hb
  have above : (a : ℚ) < b * 2 ^ ((a.log2 : Int) - b.log2 + 1) := by
    calc (a : ℚ) < 2 ^ ((a.log2 : Int) + 1) := a_lt
      _ = 2 ^ (b.log2 : Int) * 2 ^ ((a.log2 : Int) - b.log2 + 1) := by
        rw [← zpow_add₀ two_ne_zero]
        congr 1
        omega
      _ ≤ b * 2 ^ ((a.log2 : Int) - b.log2 + 1) :=
        mul_le_mul_of_nonneg_right b_ge (by positivity)
  have below : b * (2 : ℚ) ^ ((a.log2 : Int) - b.log2 - 1) ≤ a := by
    calc b * (2 : ℚ) ^ ((a.log2 : Int) - b.log2 - 1)
        ≤ 2 ^ ((b.log2 : Int) + 1) * 2 ^ ((a.log2 : Int) - b.log2 - 1) :=
          mul_le_mul_of_nonneg_right b_lt.le (by positivity)
      _ = 2 ^ (a.log2 : Int) := by
        rw [← zpow_add₀ two_ne_zero]
        congr 1
        omega
      _ ≤ a := a_ge
  unfold binaryOrder
  simp only [le_shifted_iff]
  split
  · exact ⟨‹_›, above⟩
  · refine ⟨below, ?_⟩
    rw [sub_add_cancel]
    exact not_le.mp ‹_›

/-- A quotient without remainder is its own nearest integer. -/
theorem nearestEven_mul_self (m : Nat) {c : Nat} (pos : 0 < c) : nearestEven (m * c) c = m := by
  simp [nearestEven, Nat.mul_div_cancel m pos, pos]

/-- The exponent that rounding chooses for a number of some binary order is none above one with
which the format holds the number. -/
theorem chosen_le_of_holds {m : Nat} {e k : Int} (held : f.Holds m e)
    (order_le : (2 : ℚ) ^ k ≤ m * 2 ^ e) : max f.least (k - f.fractionBits) ≤ e := by
  have bound : (2 : ℚ) ^ k < 2 ^ ((f.fractionBits : Int) + 1 + e) := by
    calc (2 : ℚ) ^ k ≤ m * 2 ^ e := order_le
      _ < 2 ^ (f.fractionBits + 1) * 2 ^ e := by
        refine mul_lt_mul_of_pos_right ?_ (by positivity)
        exact_mod_cast held.significand_lt
      _ = 2 ^ ((f.fractionBits : Int) + 1 + e) := by
        rw [← zpow_natCast, ← zpow_add₀ two_ne_zero, Nat.cast_succ]
  have order_lt := (zpow_lt_zpow_iff_right₀ one_lt_two).mp bound
  have least_le := held.least_le
  omega

/-- **What the format holds, it holds canonically** with the exponent that rounding chooses. -/
theorem canonical_of_holds {m : Nat} {e k : Int} (held : f.Holds m e)
    (order_le : (2 : ℚ) ^ k ≤ m * 2 ^ e) (lt_order : (m : ℚ) * 2 ^ e < 2 ^ (k + 1)) :
    ∃ n, f.Canonical n (max f.least (k - f.fractionBits)) ∧
      (m : ℚ) * 2 ^ e = n * 2 ^ max f.least (k - f.fractionBits) := by
  have chosen_le := chosen_le_of_holds held order_le
  generalize chosen : max f.least (k - f.fractionBits) = c at chosen_le ⊢
  have same : (m : ℚ) * 2 ^ e = (m * Nat.pow 2 (e - c).toNat : Nat) * 2 ^ c := by
    rw [Nat.cast_mul, natCast_pow_two, mul_assoc, ← zpow_natCast, ← zpow_add₀ two_ne_zero]
    congr 2
    omega
  refine ⟨_, ⟨?_, by omega, chosen_le.trans held.le_greatest, ?_⟩, same⟩
  · generalize m * Nat.pow 2 (e - c).toNat = n at same
    have bound : (n : ℚ) * 2 ^ c < 2 ^ (f.fractionBits + 1) * 2 ^ c := by
      calc (n : ℚ) * 2 ^ c = m * 2 ^ e := same.symm
        _ < 2 ^ (k + 1) := lt_order
        _ ≤ 2 ^ (((f.fractionBits + 1 : Nat) : Int) + c) :=
          zpow_le_zpow_right₀ one_le_two (by omega)
        _ = 2 ^ (f.fractionBits + 1) * 2 ^ c := by rw [zpow_add₀ two_ne_zero, zpow_natCast]
    have below := lt_of_mul_lt_mul_right bound (by positivity)
    exact_mod_cast below
  · generalize m * Nat.pow 2 (e - c).toNat = n at same
    by_cases at_least : c = f.least
    · exact .inr at_least
    · left
      have bound : (2 : ℚ) ^ f.fractionBits * 2 ^ c ≤ n * 2 ^ c := by
        calc (2 : ℚ) ^ f.fractionBits * 2 ^ c = 2 ^ k := by
              rw [← zpow_natCast, ← zpow_add₀ two_ne_zero]
              congr 1
              omega
          _ ≤ m * 2 ^ e := order_le
          _ = n * 2 ^ c := same
      have above := le_of_mul_le_mul_right bound (by positivity)
      exact_mod_cast above

/-- **A quotient that the format holds is not rounded.** -/
theorem amount_roundQuotient {a b m : Nat} {e : Int} (negative : Bool) (hb : b ≠ 0)
    (held : f.Holds m e) (quotient : (a : ℚ) = b * (m * 2 ^ e)) :
    (roundQuotient negative a b : Floating f).amount = .exact (rational negative m e) := by
  by_cases ha : a = 0
  · have zero : m = 0 := by
      have powers : (2 : ℚ) ^ e ≠ 0 := by positivity
      simpa [ha, hb, powers] using quotient
    subst zero
    simp [roundQuotient, ha, Floating.zero, amount, rational, signed]
  · obtain ⟨order_le, lt_order⟩ := binaryOrder_bounds ha hb
    have b_pos : (0 : ℚ) < b := by positivity
    rw [quotient, mul_le_mul_iff_right₀ b_pos] at order_le
    rw [quotient, mul_lt_mul_iff_right₀ b_pos] at lt_order
    obtain ⟨n, canonical, same⟩ := canonical_of_holds held order_le lt_order
    simp only [roundQuotient, if_neg ha]
    generalize max f.least (binaryOrder a b - f.fractionBits) = c at canonical same ⊢
    have exact_quotient : a * Nat.pow 2 (-c).toNat = n * (b * Nat.pow 2 c.toNat) := by
      rw [← mul_assoc, eq_shifted_iff, quotient, same, Nat.cast_mul]
      ring
    have divisor_pos : 0 < b * Nat.pow 2 c.toNat :=
      Nat.mul_pos (Nat.pos_of_ne_zero hb) (Nat.two_pow_pos _)
    rw [exact_quotient, nearestEven_mul_self n divisor_pos, ofRounded, dif_pos canonical, amount]
    cases negative <;> simp [rational, signed, same]

/-- A number that the format holds is not rounded. -/
theorem amount_roundScaled {m : Nat} {e : Int} (negative : Bool) (held : f.Holds m e) :
    (roundScaled negative m e : Floating f).amount = .exact (rational negative m e) := by
  refine amount_roundQuotient negative (Nat.two_pow_pos _).ne' held ?_
  rw [Nat.cast_mul, natCast_pow_two, natCast_pow_two, ← zpow_mul_toNat_neg]
  ring

/-- **A format that holds the numbers of another keeps their amounts.** -/
theorem amount_cast (held : ∀ {m e}, f.Canonical m e → g.Holds m e) (x : Floating f) :
    (x.cast : Floating g).amount = x.amount := by
  cases x with
  | nan => rfl
  | infinite s => rfl
  | finite s m e canonical => exact amount_roundScaled s (held canonical)

/-- Doubles hold all singles. -/
theorem amount_toDouble (x : Single) : (x.cast : Double).amount = x.amount := by
  refine amount_cast (fun {m e} canonical => ?_) x
  refine ⟨canonical.significand_lt.trans (by decide), ?_, ?_⟩
  · exact le_trans (by decide) canonical.least_le
  · exact canonical.le_greatest.trans (by decide)

/-! ### Integers -/

/-- An integer that the format holds is not rounded. -/
theorem amount_ofInt {i : Int} {m : Nat} {e : Int} (held : f.Holds m e)
    (magnitude : (i.natAbs : ℚ) = m * 2 ^ e) : (ofInt i : Floating f).amount = .exact i := by
  rw [ofInt, amount_roundQuotient _ one_ne_zero held (by simpa using magnitude)]
  congr 1
  by_cases negative : i < 0
  · have : (i : ℚ) = -(i.natAbs : ℚ) := by
      rw [Nat.cast_natAbs, abs_of_neg negative, Int.cast_neg, neg_neg]
    simp [rational, signed, negative, this, magnitude]
  · have : (i : ℚ) = (i.natAbs : ℚ) := by
      rw [Nat.cast_natAbs, abs_of_nonneg (by omega)]
    simp [rational, signed, negative, this, magnitude]

/-- A power of two up to the bounds of the integer kinds, with either sign. -/
theorem amount_ofInt_power (covers : f.Covers) {i : Int} {k : Nat} (small : k ≤ 63)
    (power : i.natAbs = 2 ^ k) : (ofInt i : Floating f).amount = .exact i := by
  have one_lt : 1 < Nat.pow 2 (f.fractionBits + 1) := Nat.one_lt_two_pow (Nat.succ_ne_zero _)
  have held : f.Holds 1 k :=
    ⟨one_lt, covers.least_le.trans (Int.natCast_nonneg k), by
      have := covers.le_greatest
      omega⟩
  refine amount_ofInt held ?_
  rw [power]
  push_cast
  rw [one_mul, zpow_natCast]

/-- Doubles hold the greatest narrow integer. -/
theorem amount_greatest_narrow_double :
    (ofInt Int32.maxValue.toInt : Double).amount = .exact Int32.maxValue.toInt := by
  have held : FloatFormat.double.Holds Int32.maxValue.toInt.natAbs 0 :=
    ⟨by decide, by decide, by decide⟩
  exact amount_ofInt held (by simp)

/-- Singles round the greatest narrow integer up. -/
theorem amount_greatest_narrow_single :
    (ofInt Int32.maxValue.toInt : Single).amount = .exact (2 ^ 31) := by
  have rounded : (ofInt Int32.maxValue.toInt : Single) =
      .finite false (Nat.pow 2 23) 8 (by decide) := rfl
  rw [rounded, amount, rational]
  norm_num [signed]

/-- Singles round the greatest wide integer up. -/
theorem amount_greatest_wide_single :
    (ofInt Int64.maxValue.toInt : Single).amount = .exact (2 ^ 63) := by
  have rounded : (ofInt Int64.maxValue.toInt : Single) =
      .finite false (Nat.pow 2 23) 40 (by decide) := rfl
  rw [rounded, amount, rational]
  norm_num [signed]

/-- So do doubles. -/
theorem amount_greatest_wide_double :
    (ofInt Int64.maxValue.toInt : Double).amount = .exact (2 ^ 63) := by
  have rounded : (ofInt Int64.maxValue.toInt : Double) =
      .finite false (Nat.pow 2 52) 11 (by decide) := rfl
  rw [rounded, amount, rational]
  norm_num [signed]

/-! ### Integer parts -/

/-- An integer part is kept within the bounds. -/
theorem truncateWithin_bounds {lo hi : Int} (bounds : lo ≤ 0 ∧ 0 ≤ hi) (x : Floating f) :
    lo ≤ x.truncateWithin lo hi ∧ x.truncateWithin lo hi ≤ hi := by
  cases x with
  | nan => exact bounds
  | infinite s =>
    cases s
    · exact ⟨bounds.1.trans bounds.2, le_refl hi⟩
    · exact ⟨le_refl lo, bounds.1.trans bounds.2⟩
  | finite s m e canonical =>
    rw [truncateWithin]
    omega

/-- The integer part of the magnitude `m · 2 ^ e`. -/
theorem floor_magnitude (m : Nat) (e : Int) :
    m * Nat.pow 2 e.toNat / Nat.pow 2 (-e).toNat = ⌊(m : ℚ) * 2 ^ e⌋₊ := by
  rw [← Nat.floor_div_eq_div (K := ℚ), Nat.cast_mul, natCast_pow_two, natCast_pow_two,
    ← zpow_mul_toNat_neg, ← mul_assoc, mul_div_cancel_right₀ _ (by positivity)]

theorem abs_rational (s : Bool) (m : Nat) (e : Int) : |rational s m e| = m * 2 ^ e := by
  have magnitude : |(signed s m : ℚ)| = m := by cases s <;> simp [signed]
  rw [rational, abs_mul, magnitude, abs_of_pos (by positivity)]

theorem rational_neg_iff {s : Bool} {m : Nat} {e : Int} (h : m ≠ 0) :
    rational s m e < 0 ↔ s = true := by
  have positive : (0 : ℚ) < m * 2 ^ e := by positivity
  cases s
  · simpa [rational, signed] using positive.le
  · simpa [rational, signed] using positive

/-- Dropping the fraction, as a function of the amount. -/
theorem truncateWithin_finite {s : Bool} {m : Nat} {e : Int} (canonical : f.Canonical m e)
    (lo hi : Int) :
    (Floating.finite s m e canonical).truncateWithin lo hi =
      max lo (min hi (signed (rational s m e < 0) ⌊|rational s m e|⌋₊)) := by
  rw [truncateWithin, abs_rational, floor_magnitude]
  by_cases zero : m = 0
  · simp [zero, rational, signed]
  · simp [rational_neg_iff zero]

/-- **Numbers of one amount have one integer part**, whatever their formats. -/
theorem truncateWithin_congr {x : Floating f} {y : Floating g} (same : x.amount = y.amount)
    (lo hi : Int) : x.truncateWithin lo hi = y.truncateWithin lo hi := by
  cases x <;> cases y <;> try cases same
  case nan.nan => rfl
  case infinite.infinite.refl => rfl
  case finite.finite s m e canonical t n d canonical' =>
    have amounts : rational s m e = rational t n d := Amount.exact.inj same
    rw [truncateWithin_finite, truncateWithin_finite, amounts]

/-! ### Dropping a fraction and coming back -/

/-- The integer part of a number needs no more places than the number has. -/
theorem amount_ofInt_truncated (covers : f.Covers) {m : Nat} {e : Int}
    (canonical : f.Canonical m e) (s : Bool) :
    (ofInt (signed s (m * Nat.pow 2 e.toNat / Nat.pow 2 (-e).toNat)) : Floating f).amount =
      .exact (signed s (m * Nat.pow 2 e.toNat / Nat.pow 2 (-e).toNat)) := by
  have held : f.Holds (m / Nat.pow 2 (-e).toNat) (max e 0) :=
    ⟨(Nat.div_le_self _ _).trans_lt canonical.significand_lt,
      canonical.least_le.trans (le_max_left e 0),
      max_le canonical.le_greatest (le_trans (by omega) covers.le_greatest)⟩
  refine amount_ofInt held ?_
  rw [natAbs_signed]
  rcases le_total 0 e with whole | fractional
  · have exponent : (-e).toNat = 0 := by omega
    rw [max_eq_left whole, exponent, show Nat.pow 2 0 = 1 from rfl, Nat.div_one, Nat.div_one,
      Nat.cast_mul, natCast_pow_two, ← zpow_natCast, Int.toNat_of_nonneg whole]
  · have exponent : e.toNat = 0 := by omega
    rw [max_eq_right fractional, exponent, show Nat.pow 2 0 = 1 from rfl, Nat.mul_one, zpow_zero,
      mul_one]

/-- **A number that comes back from its integer part is that integer**, unless it lies beyond the
greatest integer allowed and is what that one is rounded to. The integer part may be taken in
another format. -/
theorem amount_of_truncated_back (covers : f.Covers) {x : Floating f} {y : Floating g}
    (wide : y.amount = x.amount) {lo hi : Int} {top : ℚ} (bounds : lo ≤ hi)
    (lowest : (ofInt lo : Floating f).amount = .exact lo)
    (highest : (ofInt hi : Floating f).amount = .exact top)
    (back : (ofInt (y.truncateWithin lo hi) : Floating f).equal x) :
    x.amount = .exact (y.truncateWithin lo hi) ∨
      y.truncateWithin lo hi = hi ∧ x.amount = .exact top := by
  replace back := (equal_iff.mp back).1
  rw [truncateWithin_congr wide] at back ⊢
  cases x with
  | nan =>
    have zero : (ofInt 0 : Floating f).amount = .exact (0 : Int) :=
      amount_ofInt f.canonical_zero.holds (by simp)
    rw [truncateWithin, zero] at back
    cases back
  | infinite s =>
    cases s <;> simp only [truncateWithin, Bool.false_eq_true, if_true, if_false] at back
    · rw [highest] at back
      cases back
    · rw [lowest] at back
      cases back
  | finite s m e canonical =>
    have inside := amount_ofInt_truncated covers canonical s
    simp only [truncateWithin] at back ⊢
    generalize signed s (m * Nat.pow 2 e.toNat / Nat.pow 2 (-e).toNat) = part at back inside ⊢
    rcases lt_or_ge part lo with below | not_below
    · have clamped : max lo (min hi part) = lo := by omega
      rw [clamped, lowest] at back
      rw [clamped]
      exact .inl back.symm
    rcases lt_or_ge hi part with above | not_above
    · have clamped : max lo (min hi part) = hi := by omega
      rw [clamped, highest] at back
      exact .inr ⟨clamped, back.symm⟩
    · have clamped : max lo (min hi part) = part := by omega
      rw [clamped, inside] at back
      rw [clamped]
      exact .inl back.symm

/-- What the greatest integer allowed is rounded to is cut down to that integer, and comes back. -/
theorem truncated_back_of_amount {x : Floating f} {y : Floating g} (wide : y.amount = x.amount)
    (lo : Int) {hi : Int} {top : ℚ} (highest : (ofInt hi : Floating f).amount = .exact top)
    (beyond : x.amount = .exact top)
    (cut : (ofInt hi : Floating f).truncateWithin lo hi = hi) :
    y.truncateWithin lo hi = hi ∧ (ofInt (y.truncateWithin lo hi) : Floating f).equal x := by
  have same : (ofInt hi : Floating f).amount = x.amount := highest.trans beyond.symm
  have cut' : y.truncateWithin lo hi = hi :=
    (truncateWithin_congr (wide.trans same.symm) lo hi).trans cut
  refine ⟨cut', ?_⟩
  rw [cut', equal_iff]
  refine ⟨same, fun nan => ?_⟩
  rw [nan] at highest
  cases highest

end Floating

end HostExpr
