import HostExpr.Decimal.Real
import HostExpr.Proofs.Floating.Nearest

/-!
Where rounding leaves the range of a format.

A magnitude half a place or more above the largest number exceeds the format; the tie goes up, as
the significand of the largest number is odd. Rounding a quotient gives an infinity exactly then,
and else a finite number nearest to it (`rounds_roundQuotient`). The number that a decimal denotes
is found by such a rounding, or without one where its exponent decides already; the answer is the
same (`rounds_ofDecimal`).
-/

namespace HostExpr

namespace FloatFormat

def largest (f : FloatFormat) : ℚ :=
  (2 ^ (f.fractionBits + 1) - 1) * 2 ^ f.greatest

/-- A magnitude rounds beyond the largest number. -/
def Exceeds (f : FloatFormat) (q : ℚ) : Prop :=
  f.largest + 2 ^ f.greatest / 2 ≤ q

variable {f : FloatFormat} {q : ℚ}

/-- No number of the format is larger than the largest one, which is one of the format. -/
theorem isGreatest_largest (f : FloatFormat) :
    IsGreatest {q : ℚ | ∃ m e, f.Canonical m e ∧ (m : ℚ) * 2 ^ e = q} f.largest := by
  have one_le : 1 ≤ Nat.pow 2 (f.fractionBits + 1) := Nat.two_pow_pos _
  have below : Nat.pow 2 f.fractionBits < Nat.pow 2 (f.fractionBits + 1) :=
    Nat.pow_lt_pow_right one_lt_two (Nat.lt_succ_self _)
  constructor
  · refine ⟨Nat.pow 2 (f.fractionBits + 1) - 1, f.greatest, ⟨?_, ?_, le_refl _, .inl ?_⟩, ?_⟩
    · exact Nat.sub_one_lt_of_lt one_le
    · simp [greatest]
    · exact Nat.le_sub_one_of_lt below
    · rw [largest, Nat.cast_sub one_le, Floating.natCast_pow_two, Nat.cast_one]
  · rintro _ ⟨m, e, canonical, rfl⟩
    have significand : (m : ℚ) ≤ 2 ^ (f.fractionBits + 1) - 1 := by
      rw [le_sub_iff_add_le]
      exact_mod_cast canonical.significand_lt
    have exponent : (2 : ℚ) ^ e ≤ 2 ^ f.greatest :=
      zpow_le_zpow_right₀ one_le_two canonical.le_greatest
    exact mul_le_mul significand exponent (by positivity) (m.cast_nonneg.trans significand)

/-- The bound lies between two powers of two. -/
theorem bound_between (f : FloatFormat) :
    (2 : ℚ) ^ (f.fractionBits + f.greatest) ≤ f.largest + 2 ^ f.greatest / 2 ∧
      f.largest + 2 ^ f.greatest / 2 < 2 ^ (f.fractionBits + 1 + f.greatest) := by
  have one_le : (1 : ℚ) ≤ 2 ^ f.fractionBits := one_le_pow₀ one_le_two
  have unit : (0 : ℚ) < 2 ^ f.greatest := by positivity
  have low : (2 : ℚ) ^ (f.fractionBits + f.greatest) = 2 ^ f.fractionBits * 2 ^ f.greatest := by
    rw [zpow_add₀ two_ne_zero, zpow_natCast]
  have high : (2 : ℚ) ^ (f.fractionBits + 1 + f.greatest) =
      2 * 2 ^ f.fractionBits * 2 ^ f.greatest := by
    rw [zpow_add₀ two_ne_zero, zpow_add₀ two_ne_zero, zpow_natCast, zpow_one]
    ring
  rw [low, high, largest, pow_succ]
  constructor
  · nlinarith
  · linarith

/-- A magnitude from the next power of two on exceeds the format. -/
theorem exceeds_of_two_pow_le (h : (2 : ℚ) ^ (f.fractionBits + 1 + f.greatest) ≤ q) :
    f.Exceeds q :=
  f.bound_between.2.le.trans h

/-- One that the format has numbers beyond, without the largest exponent, does not. -/
theorem not_exceeds_of_lt_two_pow (h : q < 2 ^ (f.fractionBits + f.greatest)) : ¬f.Exceeds q :=
  not_le.mpr (h.trans_le f.bound_between.1)

end FloatFormat

namespace Floating

variable {f : FloatFormat}

/-- A number that a magnitude may round to, with a sign: an infinity if it exceeds the format, and
else a nearest number. -/
inductive Rounds (negative : Bool) (q : ℚ) : Floating f → Prop where
  | beyond (exceeds : f.Exceeds q) : Rounds negative q (.infinite negative)
  | within {x : Floating f} {m : Nat} {e : Int} (fits : ¬f.Exceeds q) (near : Nearest f q m e)
      (amount : x.amount = .exact (rational negative m e)) : Rounds negative q x

/-- Rounding gives an infinity exactly beyond the bound. -/
theorem Rounds.infinite_iff {negative : Bool} {q : ℚ} {x : Floating f}
    (h : Rounds negative q x) : (∃ s, x = .infinite s) ↔ f.Exceeds q := by
  cases h with
  | beyond exceeds => exact iff_of_true ⟨negative, rfl⟩ exceeds
  | within fits near amount =>
    refine iff_of_false ?_ fits
    rintro ⟨s, rfl⟩
    cases amount

/-! ### Quotients -/

/-- The nearest integer is below an even one unless the quotient is half a place before that, which
is a tie, or beyond. -/
theorem nearestEven_lt_iff {a b n : Nat} (pos : 0 < b) (even : n % 2 = 0) :
    nearestEven a b < n ↔ 2 * a + b < 2 * (n * b) := by
  have parts := Nat.div_add_mod' a b
  have small := Nat.mod_lt a pos
  have side : ∀ k, k < n ∧ (k + 1) * b ≤ n * b ∨ n ≤ k ∧ n * b ≤ k * b := fun k =>
    (lt_or_ge k n).imp (fun lt => ⟨lt, Nat.mul_le_mul_right b lt⟩)
      fun ge => ⟨ge, Nat.mul_le_mul_right b ge⟩
  have lower := side (a / b)
  have upper := side (a / b + 1)
  simp only [Nat.add_one_mul] at lower upper
  unfold nearestEven
  dsimp only
  split
  · omega
  · split
    · omega
    · -- a tie goes to the even neighbour, so not to the odd place before n
      have parity : a / b + a / b % 2 < n ↔ a / b + 1 < n := by omega
      omega

/-- The chosen place of a quotient is below an even one, unless the quotient is half a step before
that or beyond. -/
theorem shifted_nearestEven_lt_iff {a b n : Nat} (e : Int) (hb : b ≠ 0) (even : n % 2 = 0) :
    nearestEven (a * Nat.pow 2 (-e).toNat) (b * Nat.pow 2 e.toNat) < n ↔
      (a : ℚ) / b < n * 2 ^ e - 2 ^ e / 2 := by
  have pos : 0 < b * Nat.pow 2 e.toNat :=
    Nat.mul_pos (Nat.pos_of_ne_zero hb) (Nat.two_pow_pos _)
  have divisor : (0 : ℚ) < (b * Nat.pow 2 e.toNat : Nat) := by exact_mod_cast pos
  have unit : (0 : ℚ) < 2 ^ e := by positivity
  have shifted := shifted_quotient a b e
  rw [nearestEven_lt_iff pos even, ← Nat.cast_lt (α := ℚ)]
  generalize b * Nat.pow 2 e.toNat = d at divisor shifted ⊢
  generalize a * Nat.pow 2 (-e).toNat = c at shifted ⊢
  rw [eq_div_iff unit.ne'] at shifted
  rw [← shifted, div_mul_eq_mul_div, div_lt_iff₀ divisor]
  have scaled : (n * (2 : ℚ) ^ e - 2 ^ e / 2) * d = (2 * (n * d) - d) / 2 * 2 ^ e := by ring
  rw [scaled, mul_lt_mul_iff_left₀ unit, lt_div_iff₀ two_pos, lt_sub_iff_add_lt]
  push_cast
  rw [mul_comm (2 : ℚ) c]

/-- The exponent that rounding chooses for a quotient has room just if the quotient does not exceed
the format. -/
theorem hasRoom_iff {a b : Nat} (ha : a ≠ 0) (hb : b ≠ 0) :
    let e := max f.least (binaryOrder a b - f.fractionBits)
    f.HasRoom (nearestEven (a * Nat.pow 2 (-e).toNat) (b * Nat.pow 2 e.toNat)) e ↔
      ¬f.Exceeds ((a : ℚ) / b) := by
  have near := nearest_chosen (f := f) ha hb
  dsimp only at near ⊢
  generalize max f.least (binaryOrder a b - f.fractionBits) = e at near ⊢
  rcases lt_trichotomy e f.greatest with smaller | last | greater
  · refine iff_of_true (.inl smaller) (FloatFormat.not_exceeds_of_lt_two_pow ?_)
    exact near.lt.trans_le (zpow_le_zpow_right₀ one_le_two (by omega))
  · have even : Nat.pow 2 (f.fractionBits + 1) % 2 = 0 := by
      rw [Nat.pow_eq, Nat.pow_succ, Nat.mul_mod_left]
    have bound : (Nat.pow 2 (f.fractionBits + 1) : Nat) * (2 : ℚ) ^ e - 2 ^ e / 2 =
        f.largest + 2 ^ f.greatest / 2 := by
      rw [natCast_pow_two, last, FloatFormat.largest]
      ring
    rw [FloatFormat.Exceeds, not_le, ← bound, ← shifted_nearestEven_lt_iff e hb even]
    simp [FloatFormat.HasRoom, last]
  · have coarse : e ≠ f.least := by
      simp only [FloatFormat.greatest] at greater
      omega
    have no_room : ∀ m, ¬f.HasRoom m e := by
      rintro m (room | room)
      · omega
      · omega
    refine iff_of_false (no_room _) (not_not_intro (FloatFormat.exceeds_of_two_pow_le ?_))
    exact (zpow_le_zpow_right₀ one_le_two (by omega)).trans (near.full coarse).1

/-- Without room there is an infinity. -/
theorem ofRounded_of_not_hasRoom {m : Nat} {e : Int} (negative : Bool) (h : ¬f.HasRoom m e) :
    (ofRounded negative m e : Floating f) = .infinite negative := by
  have kept : ¬f.Canonical m e := fun canonical => h <|
    canonical.le_greatest.lt_or_eq.imp id fun last => ⟨last, canonical.significand_lt⟩
  have carried : ¬f.Canonical (m / 2) (e + 1) := fun canonical =>
    h (.inl (Int.lt_of_add_one_le canonical.le_greatest))
  rw [ofRounded, dif_neg kept, dif_neg carried]

/-- Zero is what a magnitude of at most half a step of the finest grid rounds to. -/
theorem rounds_zero {q : ℚ} (nonneg : 0 ≤ q) (small : q ≤ 2 ^ f.least / 2) (negative : Bool) :
    (zero negative : Floating f).Rounds negative q := by
  have unit : (0 : ℚ) < 2 ^ f.least := by positivity
  refine .within ?_ (.zero nonneg small) rfl
  refine FloatFormat.not_exceeds_of_lt_two_pow ?_
  calc q < 2 ^ f.least := by linarith
    _ ≤ 2 ^ (f.fractionBits + f.greatest) := by
        refine zpow_le_zpow_right₀ one_le_two ?_
        simp only [FloatFormat.greatest]
        omega

/-- **Rounding a quotient gives a nearest number, or an infinity if the quotient exceeds the
format.** -/
theorem rounds_roundQuotient {a b : Nat} (hb : b ≠ 0) (negative : Bool) :
    (roundQuotient negative a b : Floating f).Rounds negative (a / b) := by
  rw [roundQuotient]
  split
  · next ha =>
    refine rounds_zero (by positivity) ?_ negative
    rw [ha, Nat.cast_zero, zero_div]
    positivity
  · next ha =>
    have room := hasRoom_iff (f := f) ha hb
    have near := nearest_chosen (f := f) ha hb
    dsimp only at room near ⊢
    by_cases exceeds : f.Exceeds ((a : ℚ) / b)
    · rw [ofRounded_of_not_hasRoom negative fun has => room.mp has exceeds]
      exact .beyond exceeds
    · exact .within exceeds near (amount_ofRounded negative near (room.mpr exceeds))

/-! ### Decimals -/

/-- Scaling by a power of ten, with a divisor if the exponent is negative. -/
theorem decimal_quotient (digits : Nat) (exponent : Int) :
    ((digits * Nat.pow 10 exponent.toNat : Nat) : ℚ) / (Nat.pow 10 (-exponent).toNat : Nat) =
      digits * 10 ^ exponent := by
  obtain ⟨k, rfl | rfl⟩ := exponent.eq_nat_or_neg
  · simp
  · simp [div_eq_mul_inv]

theorem two_zpow_le_ten_zpow {k : Int} (nonneg : 0 ≤ k) : (2 : ℚ) ^ k ≤ 10 ^ k :=
  zpow_le_zpow_left₀ nonneg two_pos.le (by norm_num)

theorem ten_zpow_le_two_zpow {k : Int} (nonpos : k ≤ 0) : (10 : ℚ) ^ k ≤ 2 ^ k := by
  have le := two_zpow_le_ten_zpow (Int.neg_nonneg_of_nonpos nonpos)
  rw [zpow_neg, zpow_neg] at le
  exact (inv_le_inv₀ (by positivity) (by positivity)).mp le

/-- **The number that a decimal denotes is its amount rounded**, also where the exponent decides
without a power of ten. -/
theorem rounds_ofDecimal (covers : f.Covers) {digits count : Nat} (lt : digits < 10 ^ count)
    (negative : Bool) (exponent : Int) :
    (ofDecimal negative digits count exponent : Floating f).Rounds negative
      (digits * 10 ^ exponent) := by
  have least_le := covers.least_le
  have le_greatest := covers.le_greatest
  rw [ofDecimal]
  split
  · next zero =>
    refine rounds_zero (by positivity) ?_ negative
    rw [zero, Nat.cast_zero, zero_mul]
    positivity
  · next nonzero =>
    split
    · next large =>
      refine .beyond (FloatFormat.exceeds_of_two_pow_le ?_)
      calc (2 : ℚ) ^ (f.fractionBits + 1 + f.greatest) ≤ 2 ^ exponent :=
            zpow_le_zpow_right₀ one_le_two (by omega)
        _ ≤ 10 ^ exponent := two_zpow_le_ten_zpow (by omega)
        _ ≤ digits * 10 ^ exponent :=
            le_mul_of_one_le_left (by positivity) (Nat.one_le_cast.mpr (Nat.pos_of_ne_zero nonzero))
    · split
      · next small =>
        refine rounds_zero (by positivity) ?_ negative
        calc (digits : ℚ) * 10 ^ exponent ≤ 10 ^ count * 10 ^ exponent :=
              mul_le_mul_of_nonneg_right (by exact_mod_cast lt.le) (by positivity)
          _ = 10 ^ (exponent + count) := by
              rw [zpow_add₀ (by norm_num), zpow_natCast, mul_comm]
          _ ≤ 2 ^ (exponent + count) := ten_zpow_le_two_zpow (by omega)
          _ ≤ 2 ^ (f.least - 1) := zpow_le_zpow_right₀ one_le_two (by omega)
          _ = 2 ^ f.least / 2 := by rw [zpow_sub₀ two_ne_zero, zpow_one]
      · have rounds := rounds_roundQuotient (f := f) (a := digits * Nat.pow 10 exponent.toNat)
          (Nat.pow_pos (n := (-exponent).toNat) (show 0 < 10 by decide)).ne' negative
        rwa [← decimal_quotient]

end Floating

end HostExpr
