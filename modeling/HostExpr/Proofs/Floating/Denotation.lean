import HostExpr.Number
import Mathlib.Algebra.Order.Field.Power
import Mathlib.Data.Rat.Lemmas
import Mathlib.Tactic.FieldSimp
import Mathlib.Tactic.Linarith
import Mathlib.Tactic.NormNum
import Mathlib.Tactic.Ring

/-!
The exact amounts that numbers stand for.

Every number but `nan` and the infinities is a rational, whatever its kind. Floating point numbers
of one format are equal exactly when their amounts are and they are not `nan`
(`Floating.equal_iff`); the two zeros have one amount.
-/

namespace HostExpr

inductive Amount where
  | nan
  | infinite (negative : Bool)
  | exact (q : ℚ)

namespace Floating

variable {f : FloatFormat}

/-- The rational `± m · 2 ^ e`. -/
def rational (negative : Bool) (m : Nat) (e : Int) : ℚ :=
  signed negative m * 2 ^ e

def amount : Floating f → Amount
  | .nan => .nan
  | .infinite s => .infinite s
  | .finite s m e _ => .exact (rational s m e)

theorem eq_nan_of_isNan {x : Floating f} (h : x.isNan) : x = .nan := by
  cases x with
  | nan => rfl
  | _ => cases h

/-- The place of a number on the scale of its format is its amount in units of the least one. -/
theorem rational_eq_scaled {e least : Int} (h : least ≤ e) (s : Bool) (m : Nat) :
    rational s m e = signed s (m * Nat.pow 2 (e - least).toNat) * 2 ^ least := by
  have split : (2 : ℚ) ^ e = 2 ^ (e - least).toNat * 2 ^ least := by
    rw [← zpow_natCast, ← zpow_add₀ two_ne_zero, Int.toNat_of_nonneg (by omega)]
    congr 1
    omega
  rw [rational, split]
  cases s <;> simp [signed] <;> ring

/-- A finite number stands below the infinities of its format. -/
theorem scaled_lt_infinite {m : Nat} {e : Int} (h : f.Canonical m e) :
    m * Nat.pow 2 (e - f.least).toNat < Nat.pow 2 (f.fractionBits + 1 + f.span) := by
  have within : (e - f.least).toNat ≤ f.span := by
    have := h.le_greatest
    simp only [FloatFormat.greatest] at this
    omega
  calc m * Nat.pow 2 (e - f.least).toNat
      < Nat.pow 2 (f.fractionBits + 1) * Nat.pow 2 (e - f.least).toNat :=
        Nat.mul_lt_mul_of_pos_right h.significand_lt (Nat.two_pow_pos _)
    _ ≤ Nat.pow 2 (f.fractionBits + 1) * Nat.pow 2 f.span :=
        Nat.mul_le_mul_left _ (Nat.pow_le_pow_right Nat.two_pos within)
    _ = Nat.pow 2 (f.fractionBits + 1 + f.span) := (Nat.pow_add 2 _ _).symm

theorem natAbs_signed (s : Bool) (a : Nat) : (signed s a).natAbs = a := by
  cases s <;> simp [signed]

theorem signed_injective {s t : Bool} {a b : Nat} (h : signed s a = signed t b) (pos : 0 < b) :
    s = t ∧ a = b := by
  cases s <;> cases t <;> simp [signed] at h ⊢ <;> omega

/-- No finite number stands where an infinity stands. -/
theorem scaled_ne_infinite {m : Nat} {e : Int} (h : f.Canonical m e) (s t : Bool) :
    signed s (m * Nat.pow 2 (e - f.least).toNat) ≠
      signed t (Nat.pow 2 (f.fractionBits + 1 + f.span)) := by
  intro same
  have magnitudes := congrArg Int.natAbs same
  rw [natAbs_signed, natAbs_signed] at magnitudes
  exact (scaled_lt_infinite h).ne magnitudes

/-- **Numbers of a format are equal exactly when they have one amount**, `nan` apart. -/
theorem equal_iff {x y : Floating f} : x.equal y ↔ x.amount = y.amount ∧ x ≠ .nan := by
  have equal_of_scaled : ∀ {a b : Int}, x.scaled? = some a → y.scaled? = some b →
      (x.equal y ↔ a = b) := by
    intro a b ha hb
    simp [equal, Floating.compare, ha, hb]
  cases x with
  | nan => simp [equal, Floating.compare, scaled?]
  | infinite s =>
    cases y with
    | nan => simp [equal, Floating.compare, scaled?, amount]
    | infinite t =>
      rw [equal_of_scaled rfl rfl]
      constructor
      · intro same
        rw [(signed_injective same (Nat.two_pow_pos _)).1]
        exact ⟨rfl, by simp⟩
      · rintro ⟨same, -⟩
        cases same
        rfl
    | finite t n d canonical =>
      rw [equal_of_scaled rfl rfl]
      constructor
      · intro same
        exact absurd same.symm (scaled_ne_infinite canonical t s)
      · rintro ⟨same, -⟩
        cases same
  | finite s m e canonical =>
    cases y with
    | nan => simp [equal, Floating.compare, scaled?, amount]
    | infinite t =>
      rw [equal_of_scaled rfl rfl]
      constructor
      · intro same
        exact absurd same (scaled_ne_infinite canonical s t)
      · rintro ⟨same, -⟩
        cases same
    | finite t n d canonical' =>
      have positive : (2 : ℚ) ^ f.least ≠ 0 := zpow_ne_zero _ two_ne_zero
      rw [equal_of_scaled rfl rfl, amount, amount, rational_eq_scaled canonical.least_le,
        rational_eq_scaled canonical'.least_le]
      constructor
      · intro same
        rw [same]
        exact ⟨rfl, by simp⟩
      · rintro ⟨same, -⟩
        have scaled := mul_right_cancel₀ positive (Amount.exact.inj same)
        exact_mod_cast scaled

end Floating

def Number.amount : Number → Amount
  | .int i => .exact i.toInt
  | .long i => .exact i.toInt
  | .float x => x.amount
  | .double x => x.amount

end HostExpr
