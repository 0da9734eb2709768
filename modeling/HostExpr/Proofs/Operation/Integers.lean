import HostExpr.Operation
import Mathlib.Algebra.Group.Nat.Defs

/-!
Arithmetic on integers.

Two integers are calculated with at the wider of their widths. Except for a division by zero, the
result is the one that integers without bounds have, `ArithmeticOperator.unbounded`, reduced to the
signed range of that width (`exists_result`). Quotient and remainder therefore belong together
whatever the operands, the least integer divided by `-1` included (`division_recombines`). The main
result is `integers_exact`.
-/

namespace HostExpr

def ArithmeticOperator.divides : ArithmeticOperator → Bool
  | .divide | .remainder => true
  | .add | .subtract | .multiply => false

/-- The result of an operator on integers without bounds. Quotients are truncated toward zero, and
remainders have the sign of the dividend. -/
def ArithmeticOperator.unbounded (op : ArithmeticOperator) (a b : Int) : Int :=
  match op with
  | .add => a + b
  | .subtract => a - b
  | .multiply => a * b
  | .divide => a.tdiv b
  | .remainder => a.tmod b

/-- An integer of one of the two widths. -/
inductive Integral where
  | narrow (i : Int32)
  | wide (i : Int64)

namespace Integral

def number : Integral → Number
  | .narrow i => .int i
  | .wide i => .long i

def value (a : Integral) : Value :=
  .number a.number

def toInt : Integral → Int
  | .narrow i => i.toInt
  | .wide i => i.toInt

def bits : Integral → Nat
  | .narrow _ => 32
  | .wide _ => 64

/-- An integer fits every width from its own on. -/
theorem bmod_toInt {a : Integral} {w : Nat} (fits : a.bits ≤ w) (within : w = 32 ∨ w = 64) :
    a.toInt.bmod (2 ^ w) = a.toInt := by
  have bounds : -(2 ^ w : Nat) ≤ a.toInt * 2 ∧ a.toInt * 2 < (2 ^ w : Nat) := by
    cases a with
    | narrow i =>
      have low := i.le_toInt
      have high := i.toInt_lt
      rcases within with rfl | rfl <;> simp only [toInt] <;> omega
    | wide i =>
      have low := i.le_toInt
      have high := i.toInt_lt
      rcases within with rfl | rfl
      · simp [bits] at fits
      · simp only [toInt]
        omega
  exact Int.bmod_eq_of_le_mul_two bounds.1 bounds.2

def widened : Integral → Int64
  | .narrow i => i.toInt64
  | .wide i => i

@[simp] theorem toInt_widened (a : Integral) : a.widened.toInt = a.toInt := by
  cases a with
  | narrow i => exact i.toInt_toInt64
  | wide i => rfl

theorem max_bits (a b : Integral) : max a.bits b.bits = 32 ∨ max a.bits b.bits = 64 := by
  cases a <;> cases b <;> simp [bits]

end Integral

namespace ArithmeticOperator

variable (op : ArithmeticOperator)

/-! ### One width -/

/-- Narrow integers are calculated with modulo `2 ^ 32`. -/
theorem toInt_onInt (a b : Int32) :
    (op.onInt a b).map Int32.toInt =
      if op.divides ∧ b.toInt = 0 then none
      else some ((op.unbounded a.toInt b.toInt).bmod (2 ^ 32)) := by
  have zero_iff : b = 0 ↔ b.toInt = 0 := Int32.toInt_inj.symm
  cases op with
  | add => simp [onInt, divides, unbounded]
  | subtract => simp [onInt, divides, unbounded]
  | multiply => simp [onInt, divides, unbounded]
  | divide => by_cases zero : b.toInt = 0 <;> simp [onInt, divides, unbounded, zero_iff, zero]
  | remainder =>
    -- A remainder fits the width, so that reducing it changes nothing.
    have fits := (a % b).toInt_bmod
    rw [Int32.toInt_mod] at fits
    by_cases zero : b.toInt = 0 <;> simp [onInt, divides, unbounded, zero_iff, zero, fits]

/-- Wide integers are calculated with modulo `2 ^ 64`. -/
theorem toInt_onLong (a b : Int64) :
    (op.onLong a b).map Int64.toInt =
      if op.divides ∧ b.toInt = 0 then none
      else some ((op.unbounded a.toInt b.toInt).bmod (2 ^ 64)) := by
  have zero_iff : b = 0 ↔ b.toInt = 0 := Int64.toInt_inj.symm
  cases op with
  | add => simp [onLong, divides, unbounded]
  | subtract => simp [onLong, divides, unbounded]
  | multiply => simp [onLong, divides, unbounded]
  | divide => by_cases zero : b.toInt = 0 <;> simp [onLong, divides, unbounded, zero_iff, zero]
  | remainder =>
    have fits := (a % b).toInt_bmod
    rw [Int64.toInt_mod] at fits
    by_cases zero : b.toInt = 0 <;> simp [onLong, divides, unbounded, zero_iff, zero, fits]

/-! ### Both widths -/

/-- What calculating at a width gives: nothing where it would divide by zero, and else the integer
of that width which the exact result is reduced to. -/
structure CalculatesAt (width : Nat) (a b : Int) (result : Option Number) : Prop where
  undefined : op.divides ∧ b = 0 → result = none
  reduced : ¬(op.divides ∧ b = 0) → ∃ c : Integral,
    result = some c.number ∧ c.bits = width ∧ c.toInt = (op.unbounded a b).bmod (2 ^ width)

variable {op}

theorem CalculatesAt.of_reduced {α : Type} {toInt : α → Int} (embed : α → Integral)
    {width : Nat} {a b : Int} {result : Option α} (embeds : ∀ c, (embed c).bits = width)
    (embeds_toInt : ∀ c, (embed c).toInt = toInt c)
    (h : result.map toInt =
      if op.divides ∧ b = 0 then none else some ((op.unbounded a b).bmod (2 ^ width))) :
    op.CalculatesAt width a b (result.map fun c => (embed c).number) := by
  constructor
  · intro zero
    rw [if_pos zero, Option.map_eq_none_iff] at h
    rw [h, Option.map_none]
  · intro defined
    rw [if_neg defined] at h
    obtain ⟨c, rfl, reduced⟩ := Option.map_eq_some_iff.mp h
    exact ⟨embed c, rfl, embeds c, (embeds_toInt c).trans reduced⟩

variable (op)

/-- Two narrow integers are calculated with as they are. -/
theorem onNumbers_int (a b : Int32) :
    op.onNumbers (.int a) (.int b) = (op.onInt a b).map .int := by
  simp [onNumbers, Number.kind, NumericKind.max, Number.widen, WideNumber.toInt]

/-- Beside a wide integer the other one is made wide. -/
theorem onNumbers_long {a b : Integral} (wide : max a.bits b.bits = 64) :
    op.onNumbers a.number b.number = (op.onLong a.widened b.widened).map .long := by
  cases a with
  | narrow i =>
    cases b with
    | narrow j => cases wide
    | wide j => rfl
  | wide i => cases b <;> rfl

theorem calculatesAt_wide {a b : Integral} (wide : max a.bits b.bits = 64) :
    op.CalculatesAt 64 a.toInt b.toInt (op.onNumbers a.number b.number) := by
  have result := op.toInt_onLong a.widened b.widened
  rw [Integral.toInt_widened, Integral.toInt_widened] at result
  rw [op.onNumbers_long wide]
  exact .of_reduced .wide (fun c => rfl) (fun c => rfl) result

/-- **Integers are calculated with at the wider of their widths.** -/
theorem onNumbers_integral (a b : Integral) :
    op.CalculatesAt (max a.bits b.bits) a.toInt b.toInt (op.onNumbers a.number b.number) := by
  cases a with
  | narrow i =>
    cases b with
    | narrow j =>
      rw [Integral.number, Integral.number, onNumbers_int]
      exact .of_reduced .narrow (fun c => rfl) (fun c => rfl) (op.toInt_onInt i j)
    | wide j => exact op.calculatesAt_wide rfl
  | wide i =>
    cases b with
    | narrow j => exact op.calculatesAt_wide rfl
    | wide j => exact op.calculatesAt_wide rfl

end ArithmeticOperator

/-! ### The operators on values -/

namespace Value

/-- An arithmetic operator on two numbers calculates with them. -/
theorem arithmetic_number (view : View) (op : ArithmeticOperator) (a b : Number) :
    arithmetic view op (.number a) (.number b) =
      match op.onNumbers a b with
      | some n => .ok (.number n)
      | none => .error .divisionByZero := by
  have apart : concatenates op (.number a) (.number b) = false := by
    simp [concatenates, string?]
  rw [arithmetic, apart, if_neg Bool.false_ne_true]
  rfl

variable (view : View) (op : ArithmeticOperator)

/-- Dividing an integer by zero fails. -/
theorem arithmetic_eq_divisionByZero {a b : Integral} (zero : op.divides ∧ b.toInt = 0) :
    a.value.arithmetic view op b.value = .error .divisionByZero := by
  rw [Integral.value, Integral.value, arithmetic_number,
    (op.onNumbers_integral a b).undefined zero]

/-- Everything else that is calculated with integers has a result, which is the exact one but for
the width. -/
theorem exists_result {a b : Integral} (defined : ¬(op.divides ∧ b.toInt = 0)) :
    ∃ c : Integral, a.value.arithmetic view op b.value = .ok c.value ∧
      c.bits = max a.bits b.bits ∧
      c.toInt = (op.unbounded a.toInt b.toInt).bmod (2 ^ max a.bits b.bits) := by
  obtain ⟨c, gives, width, reduced⟩ := (op.onNumbers_integral a b).reduced defined
  refine ⟨c, ?_, width, reduced⟩
  rw [Integral.value, Integral.value, arithmetic_number, gives, Integral.value]

/-- **Quotient and remainder belong together.** -/
theorem division_recombines {a b : Integral} (nonzero : b.toInt ≠ 0) :
    ∃ q p r c : Integral,
      a.value.arithmetic view .divide b.value = .ok q.value ∧
      q.value.arithmetic view .multiply b.value = .ok p.value ∧
      a.value.arithmetic view .remainder b.value = .ok r.value ∧
      p.value.arithmetic view .add r.value = .ok c.value ∧
      c.toInt = a.toInt ∧ c.bits = max a.bits b.bits := by
  have defined : ∀ op : ArithmeticOperator, ¬(op.divides ∧ b.toInt = 0) :=
    fun _ zero => nonzero zero.2
  obtain ⟨q, divided, q_bits, q_toInt⟩ := exists_result view .divide (a := a) (defined _)
  obtain ⟨p, multiplied, p_bits, p_toInt⟩ := exists_result view .multiply (a := q) (defined _)
  obtain ⟨r, left_over, r_bits, r_toInt⟩ := exists_result view .remainder (a := a) (defined _)
  have adds : ¬(ArithmeticOperator.add.divides ∧ r.toInt = 0) := fun zero => by cases zero.1
  obtain ⟨c, added, c_bits, c_toInt⟩ := exists_result view .add (a := p) adds
  have p_width : max q.bits b.bits = max a.bits b.bits := by omega
  have c_width : max p.bits r.bits = max a.bits b.bits := by omega
  refine ⟨q, p, r, c, divided, multiplied, left_over, added, ?_, c_bits.trans c_width⟩
  rw [p_width] at p_toInt
  rw [c_width] at c_toInt
  generalize max_eq : max a.bits b.bits = w at *
  calc c.toInt = (p.toInt + r.toInt).bmod (2 ^ w) := c_toInt
    _ = ((q.toInt * b.toInt).bmod (2 ^ w) + (a.toInt.tmod b.toInt).bmod (2 ^ w)).bmod (2 ^ w) := by
      rw [p_toInt, r_toInt, ArithmeticOperator.unbounded, ArithmeticOperator.unbounded]
    _ = (a.toInt.tdiv b.toInt * b.toInt + a.toInt.tmod b.toInt).bmod (2 ^ w) := by
      rw [q_toInt, ArithmeticOperator.unbounded, Int.bmod_add_bmod, Int.add_bmod_bmod,
        ← Int.bmod_add_bmod, Int.bmod_mul_bmod, Int.bmod_add_bmod]
    _ = a.toInt.bmod (2 ^ w) := by rw [Int.tdiv_mul_add_tmod]
    _ = a.toInt := Integral.bmod_toInt (by omega) (max_eq ▸ a.max_bits b)

/-- Turning the sign is subtracting from a zero that is no wider. -/
theorem negate_integral {z v : Integral} (zero : z.toInt = 0) (narrower : z.bits ≤ v.bits) :
    v.value.negate view = z.value.arithmetic view .subtract v.value := by
  rw [Integral.value, Integral.value, arithmetic_number]
  cases v with
  | narrow j =>
    cases z with
    | narrow i =>
      obtain rfl : i = 0 := Int32.toInt_inj.mp zero
      rw [Integral.number, Integral.number, ArithmeticOperator.onNumbers_int]
      simp [negate, Number.neg, ArithmeticOperator.onInt]
    | wide i => simp [Integral.bits] at narrower
  | wide j =>
    have widened : z.widened = 0 := by
      rw [← Int64.toInt_inj, Integral.toInt_widened, zero, Int64.toInt_zero]
    have wide : max z.bits (Integral.wide j).bits = 64 := Nat.max_eq_right narrower
    rw [ArithmeticOperator.onNumbers_long _ wide, widened]
    simp [negate, Integral.number, Integral.widened, Number.neg, ArithmeticOperator.onLong]

/-- **Arithmetic on integers is exact but for the width.** It fails exactly where it would divide by
zero. Else the result is an integer of the wider of the two widths, namely the exact one reduced to
the signed range of that width. So quotient and remainder recombine to the dividend, and turning the
sign is subtracting from zero. -/
theorem integers_exact :
    (∀ (op : ArithmeticOperator) (a b : Integral),
      (op.divides ∧ b.toInt = 0 → a.value.arithmetic view op b.value = .error .divisionByZero) ∧
      (¬(op.divides ∧ b.toInt = 0) → ∃ c : Integral,
        a.value.arithmetic view op b.value = .ok c.value ∧ c.bits = max a.bits b.bits ∧
          c.toInt = (op.unbounded a.toInt b.toInt).bmod (2 ^ c.bits))) ∧
    (∀ a b : Integral, b.toInt ≠ 0 → ∃ q p r c : Integral,
      a.value.arithmetic view .divide b.value = .ok q.value ∧
      q.value.arithmetic view .multiply b.value = .ok p.value ∧
      a.value.arithmetic view .remainder b.value = .ok r.value ∧
      p.value.arithmetic view .add r.value = .ok c.value ∧
      c.toInt = a.toInt ∧ c.bits = max a.bits b.bits) ∧
    (∀ z v : Integral, z.toInt = 0 → z.bits ≤ v.bits →
      v.value.negate view = z.value.arithmetic view .subtract v.value) := by
  refine ⟨fun op a b => ⟨arithmetic_eq_divisionByZero view op, fun defined => ?_⟩,
    fun a b => division_recombines view, fun z v => negate_integral view⟩
  obtain ⟨c, gives, width, reduced⟩ := exists_result view op defined
  rw [← width] at reduced
  exact ⟨c, gives, width, reduced⟩

/-- The least narrow integer divided by `-1` is itself; it has no remainder by zero, is put together
again from its quotient and remainder by `-1`, and is zero less itself. -/
theorem integers_exact_of_least :
    let view : View := fun _ => none
    let least : Integral := .narrow Int32.minValue
    let minusOne : Integral := .narrow (-1)
    let zero : Integral := .narrow 0
    (∃ c : Integral, least.value.arithmetic view .divide minusOne.value = .ok c.value ∧
      c.bits = 32 ∧ c.toInt = least.toInt) ∧
    least.value.arithmetic view .remainder zero.value = .error .divisionByZero ∧
    (∃ q p r c : Integral,
      least.value.arithmetic view .divide minusOne.value = .ok q.value ∧
      q.value.arithmetic view .multiply minusOne.value = .ok p.value ∧
      least.value.arithmetic view .remainder minusOne.value = .ok r.value ∧
      p.value.arithmetic view .add r.value = .ok c.value ∧
      c.toInt = least.toInt ∧ c.bits = 32) ∧
    least.value.negate view = zero.value.arithmetic view .subtract least.value := by
  intro view least minusOne zero
  obtain ⟨calculated, recombined, negated⟩ := integers_exact view
  have nonzero : minusOne.toInt ≠ 0 := by decide
  obtain ⟨c, divided, width, reduced⟩ :=
    (calculated .divide least minusOne).2 fun zero => nonzero zero.2
  refine ⟨⟨c, divided, width, ?_⟩, (calculated .remainder least zero).1 ⟨rfl, rfl⟩,
    recombined least minusOne nonzero, negated zero least rfl (Nat.le_refl _)⟩
  rw [reduced, width]
  decide

end Value

end HostExpr
