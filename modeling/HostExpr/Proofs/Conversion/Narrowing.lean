import HostExpr.Conversion
import HostExpr.Proofs.Conversion.Conforms
import HostExpr.Proofs.Floating.Exactness

/-!
Narrowing that loses nothing.

The policy `lossless` compares a number with what the narrowed one becomes when it is moved back.
Where the way back is exact, so is the narrowing. It is not at one place: the greatest integer of a
kind may need more places than a floating point format has. The power of two after it is then cut
down to it and comes back, rounded up, as itself (`Number.JustBeyond`). Everywhere else a narrowed
number has the amount it had (`lossless_narrowing`).
-/

namespace HostExpr

namespace Number

/-- The number is the power of two after the greatest integer of an integer kind, in a format that
rounds that integer up to it. -/
def JustBeyond : Number → NumericKind → Prop
  | .float x, .int => x.amount = .exact (2 ^ 31)
  | .float x, .long => x.amount = .exact (2 ^ 63)
  | .double x, .long => x.amount = .exact (2 ^ 63)
  | _, _ => False

/-- A double moved to a narrow integer is its integer part, kept within bounds. -/
theorem toInt_real (x : Double) :
    (WideNumber.real x).toInt.toInt =
      x.truncateWithin Int32.minValue.toInt Int32.maxValue.toInt := by
  have bounds := x.truncateWithin_bounds
    (show Int32.minValue.toInt ≤ 0 ∧ 0 ≤ Int32.maxValue.toInt by decide)
  exact Int32.toInt_ofInt_of_le bounds.1 (Int.lt_add_one_of_le bounds.2)

/-- A double moved to a wide integer is its integer part, kept within bounds. -/
theorem toLong_real (x : Double) :
    (WideNumber.real x).toLong.toInt =
      x.truncateWithin Int64.minValue.toInt Int64.maxValue.toInt := by
  have bounds := x.truncateWithin_bounds
    (show Int64.minValue.toInt ≤ 0 ∧ 0 ≤ Int64.maxValue.toInt by decide)
  exact Int64.toInt_ofInt_of_le bounds.1 (Int.lt_add_one_of_le bounds.2)

section Back

open Floating

variable {f : FloatFormat} (covers : f.Covers) {x : Floating f} {y : Double}
  (wide : y.amount = x.amount) {top : ℚ}

include covers wide

/-- What comes back from a narrow integer unchanged is that integer, or what the greatest one is
rounded to. -/
theorem amount_of_narrow_back
    (highest : (ofInt Int32.maxValue.toInt : Floating f).amount = .exact top)
    (back : (ofInt (WideNumber.real y).toInt.toInt : Floating f).equal x) :
    x.amount = .exact (WideNumber.real y).toInt.toInt ∨
      (WideNumber.real y).toInt.toInt = Int32.maxValue.toInt ∧ x.amount = .exact top := by
  have lowest : (ofInt Int32.minValue.toInt : Floating f).amount = .exact Int32.minValue.toInt :=
    amount_ofInt_power (k := 31) covers (by omega) rfl
  rw [toInt_real] at back ⊢
  exact amount_of_truncated_back covers wide (by decide) lowest highest back

/-- What comes back from a wide integer unchanged is that integer, or what the greatest one is
rounded to. -/
theorem amount_of_wide_back
    (highest : (ofInt Int64.maxValue.toInt : Floating f).amount = .exact top)
    (back : (ofInt (WideNumber.real y).toLong.toInt : Floating f).equal x) :
    x.amount = .exact (WideNumber.real y).toLong.toInt ∨
      (WideNumber.real y).toLong.toInt = Int64.maxValue.toInt ∧ x.amount = .exact top := by
  have lowest : (ofInt Int64.minValue.toInt : Floating f).amount = .exact Int64.minValue.toInt :=
    amount_ofInt_power (k := 63) covers (by omega) rfl
  rw [toLong_real] at back ⊢
  exact amount_of_truncated_back covers wide (by decide) lowest highest back

end Back

end Number

namespace StandardConverter

open FloatFormat Floating

section Surviving

attribute [local simp] survives Number.cast Number.kind NumericKind.rank Number.widen Number.isNan
  Number.sameKindEqual WideNumber.toSingle WideNumber.toDouble

/-- A wide integer that survives as a narrow one is that one. -/
theorem amount_of_survives_long {i : Int64} {k : NumericKind}
    (narrower : k.rank < NumericKind.long.rank)
    (back : survives (.long i) ((Number.long i).cast k)) :
    ((Number.long i).cast k).amount = (Number.long i).amount := by
  cases k <;> simp at narrower
  have same : i.toInt32.toInt64 = i := by
    simpa [WideNumber.toInt, WideNumber.toLong] using back
  show Amount.exact i.toInt32.toInt = .exact i.toInt
  rw [← Int32.toInt_toInt64, same]

/-- A single that survives as an integer is that integer, unless it is just beyond the kind. -/
theorem amount_of_survives_float {x : Single} {k : NumericKind}
    (narrower : k.rank < NumericKind.float.rank) (elsewhere : ¬(Number.float x).JustBeyond k)
    (back : survives (.float x) ((Number.float x).cast k)) :
    ((Number.float x).cast k).amount = (Number.float x).amount := by
  cases k <;> simp at narrower
  case int =>
    have same : (ofInt (WideNumber.real x.cast).toInt.toInt : Single).equal x := by
      simpa using back
    rcases Number.amount_of_narrow_back single_covers (amount_toDouble x)
      amount_greatest_narrow_single same with whole | ⟨-, beyond⟩
    · exact whole.symm
    · exact absurd beyond elsewhere
  case long =>
    have same : (ofInt (WideNumber.real x.cast).toLong.toInt : Single).equal x := by
      simpa using back
    rcases Number.amount_of_wide_back single_covers (amount_toDouble x)
      amount_greatest_wide_single same with whole | ⟨-, beyond⟩
    · exact whole.symm
    · exact absurd beyond elsewhere

/-- A double that survives as a number of another kind has its amount, unless it is just beyond the
kind. -/
theorem amount_of_survives_double {x : Double} {k : NumericKind}
    (narrower : k.rank < NumericKind.double.rank) (elsewhere : ¬(Number.double x).JustBeyond k)
    (back : survives (.double x) ((Number.double x).cast k)) :
    ((Number.double x).cast k).amount = (Number.double x).amount := by
  cases k <;> simp at narrower
  case int =>
    have same : (ofInt (WideNumber.real x).toInt.toInt : Double).equal x := by simpa using back
    rcases Number.amount_of_narrow_back double_covers rfl amount_greatest_narrow_double same with
      whole | ⟨greatest, whole⟩
    · exact whole.symm
    · exact (congrArg (fun i : Int => Amount.exact i) greatest).trans whole.symm
  case long =>
    have same : (ofInt (WideNumber.real x).toLong.toInt : Double).equal x := by simpa using back
    rcases Number.amount_of_wide_back double_covers rfl amount_greatest_wide_double same with
      whole | ⟨-, beyond⟩
    · exact whole.symm
    · exact absurd beyond elsewhere
  case float =>
    -- Moving a single back to a double is exact, so the comparison is one with the single itself.
    show (x.cast : Single).amount = x.amount
    rw [← amount_toDouble]
    have same : ((x.cast : Single).cast : Double).equal x ∨
        x.isNan ∧ ((x.cast : Single).cast : Double).isNan := by simpa using back
    rcases same with equal | ⟨nan, nan'⟩
    · exact (equal_iff.mp equal).1
    · rw [eq_nan_of_isNan nan', eq_nan_of_isNan nan]

/-- **A number that survives being narrowed keeps its amount**, unless it is just beyond the kind.
-/
theorem amount_of_survives {n : Number} {k : NumericKind} (narrower : k.rank < n.kind.rank)
    (elsewhere : ¬n.JustBeyond k) (back : survives n (n.cast k)) :
    (n.cast k).amount = n.amount := by
  cases n with
  | int i => cases k <;> simp at narrower
  | long i => exact amount_of_survives_long narrower back
  | float x => exact amount_of_survives_float narrower elsewhere back
  | double x => exact amount_of_survives_double narrower elsewhere back

/-- **A number just beyond an integer kind survives** as the greatest integer of the kind, which is
less by one. -/
theorem survives_of_justBeyond {n : Number} {k : NumericKind} (beyond : n.JustBeyond k) :
    survives n (n.cast k) ∧
      ∃ q, n.amount = .exact (q + 1) ∧ (n.cast k).amount = .exact q := by
  match n, k with
  | .float x, .int =>
    obtain ⟨cut, back⟩ := truncated_back_of_amount (amount_toDouble x) Int32.minValue.toInt
      amount_greatest_narrow_single beyond rfl
    rw [← Number.toInt_real] at cut back
    refine ⟨by simpa using back, Int32.maxValue.toInt, beyond.trans ?_,
      congrArg (fun i : Int => Amount.exact i) cut⟩
    norm_num [Int32.toInt_maxValue]
  | .float x, .long =>
    obtain ⟨cut, back⟩ := truncated_back_of_amount (amount_toDouble x) Int64.minValue.toInt
      amount_greatest_wide_single beyond rfl
    rw [← Number.toLong_real] at cut back
    refine ⟨by simpa using back, Int64.maxValue.toInt, beyond.trans ?_,
      congrArg (fun i : Int => Amount.exact i) cut⟩
    norm_num [Int64.toInt_maxValue]
  | .double x, .long =>
    obtain ⟨cut, back⟩ := truncated_back_of_amount (y := x) rfl Int64.minValue.toInt
      amount_greatest_wide_double beyond rfl
    rw [← Number.toLong_real] at cut back
    refine ⟨by simpa using back, Int64.maxValue.toInt, beyond.trans ?_,
      congrArg (fun i : Int => Amount.exact i) cut⟩
    norm_num [Int64.toInt_maxValue]

end Surviving

/-- Under the policy `lossless` a number is moved down the order of kinds if it survives that. -/
theorem convert_lossless {c : StandardConverter} (policy : c.narrowing = .lossless) (view : View)
    {n : Number} {k : NumericKind} (narrower : k.rank < n.kind.rank) :
    c.convert view (.number n) (.number k) =
      if survives n (n.cast k) then .ok (.number (n.cast k))
      else .error (.typeMismatch (.lossy n (.number k))) := by
  have unlike : n.kind ≠ k := by
    rintro rfl
    exact lt_irrefl _ narrower
  unfold convert
  rw [if_neg (by simpa [Value.valueType] using unlike)]
  unfold convertNumber
  dsimp only
  rw [if_neg (Nat.not_le.mpr narrower), policy]

/-- **Narrowing preserves numbers**, up to one place. Under the policy `lossless` a number that is
moved down the order of kinds becomes one of the same amount, if it becomes anything, unless it is
just beyond an integer kind; then it becomes the greatest integer of that kind. -/
theorem lossless_narrowing {c : StandardConverter} (policy : c.narrowing = .lossless) (view : View)
    {n : Number} {k : NumericKind} (narrower : k.rank < n.kind.rank) :
    (¬n.JustBeyond k → ∀ w, c.convert view (.number n) (.number k) = .ok w →
      ∃ m : Number, w = .number m ∧ m.kind = k ∧ m.amount = n.amount) ∧
    (n.JustBeyond k → ∃ (m : Number) (q : ℚ),
      c.convert view (.number n) (.number k) = .ok (.number m) ∧ m.kind = k ∧
        n.amount = .exact (q + 1) ∧ m.amount = .exact q) := by
  rw [convert_lossless policy view narrower]
  constructor
  · intro elsewhere w converted
    split at converted
    · next back =>
      cases converted
      exact ⟨_, rfl, Number.kind_cast k n, amount_of_survives narrower elsewhere back⟩
    · cases converted
  · intro beyond
    obtain ⟨back, q, before, after⟩ := survives_of_justBeyond beyond
    rw [if_pos back]
    exact ⟨_, q, rfl, Number.kind_cast k n, before, after⟩

/-- The double `2` becomes the narrow integer `2`. -/
theorem lossless_narrowing_of_two :
    let c : StandardConverter := {}
    let two : Number := .double (ofInt 2)
    c.convert (fun _ => none) (.number two) (.number .int) = .ok (.int 2) ∧
      (Number.int 2).amount = two.amount := by
  intro c two
  have moved : two.cast .int = .int 2 := by decide +kernel
  have back : survives two (two.cast .int) := by decide +kernel
  have converted := convert_lossless (c := c) rfl (fun _ => none) (n := two) (k := .int) (by decide)
  rw [if_pos back, moved] at converted
  obtain ⟨m, same, -, kept⟩ :=
    (lossless_narrowing (c := c) rfl (fun _ => none) (n := two) (k := .int) (by decide)).1
      not_false _ converted
  cases same
  exact ⟨converted, kept⟩

/-- The single `2 ^ 31` becomes a narrow integer, and the double `2 ^ 63` a wide one, that is less
by one. -/
theorem lossless_narrowing_loses_one :
    let c : StandardConverter := {}
    let single : Number := .float (ofInt (2 ^ 31))
    let double : Number := .double (ofInt (2 ^ 63))
    c.convert (fun _ => none) (.number single) (.number .int) = .ok (.int Int32.maxValue) ∧
      single.amount = .exact (2 ^ 31) ∧ (Number.int Int32.maxValue).amount = .exact (2 ^ 31 - 1) ∧
      c.convert (fun _ => none) (.number double) (.number .long) = .ok (.long Int64.maxValue) ∧
      double.amount = .exact (2 ^ 63) ∧
      (Number.long Int64.maxValue).amount = .exact (2 ^ 63 - 1) := by
  intro c single double
  have single_amount : (ofInt (2 ^ 31) : Single).amount = .exact (2 ^ 31) :=
    (amount_ofInt_power (k := 31) single_covers (by omega) rfl).trans (by norm_num)
  have double_amount : (ofInt (2 ^ 63) : Double).amount = .exact (2 ^ 63) :=
    (amount_ofInt_power (k := 63) double_covers (by omega) rfl).trans (by norm_num)
  refine ⟨?_, single_amount, ?_, ?_, double_amount, ?_⟩
  · have moved : single.cast .int = .int Int32.maxValue := by decide +kernel
    have back : survives single (single.cast .int) := by decide +kernel
    rw [convert_lossless rfl _ (by decide), if_pos back, moved]
  · norm_num [Number.amount, Int32.toInt_maxValue]
  · have moved : double.cast .long = .long Int64.maxValue := by decide +kernel
    have back : survives double (double.cast .long) := by decide +kernel
    rw [convert_lossless rfl _ (by decide), if_pos back, moved]
  · norm_num [Number.amount, Int64.toInt_maxValue]

end StandardConverter

end HostExpr
