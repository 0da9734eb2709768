import HostExpr.Proofs.Floating.Nearest
import HostExpr.Proofs.Operation.Coherence
import HostExpr.Proofs.Operation.Integers

/-!
Comparison and the wider kind.

Arithmetic moves two numbers to the wider of their kinds. Comparison reads two integers as wide ones
and all else as doubles, and at any two kinds but an integer and a single that is to compare at the
wider kind (`compare_of_alike`). A single has not the places for every integer, though, and a double
has more. So an integer beside a single may differ from it as doubles and equal it as singles; that
is the only way in which the two comparisons disagree (`compareAt_single`).
-/

namespace HostExpr

namespace Number

open Floating

/-- The order of two numbers of one kind; numbers of different kinds have none. -/
def sameKindCompare : Number → Number → Option Ordering
  | .int a, .int b => some (Ord.compare a.toInt b.toInt)
  | .long a, .long b => some (Ord.compare a.toInt b.toInt)
  | .float a, .float b => a.compare b
  | .double a, .double b => a.compare b
  | _, _ => none

def compareAt (k : NumericKind) (a b : Number) : Option Ordering :=
  (a.cast k).sameKindCompare (b.cast k)

/-- One of the numbers is an integer and the other a single. -/
def MixesSingle : Number → Number → Prop
  | .int _, .float _ | .long _, .float _ | .float _, .int _ | .float _, .long _ => True
  | _, _ => False

/-- Numbers of one kind are equal exactly when their order finds them equal. -/
theorem sameKindEqual_eq_compare (a b : Number) :
    a.sameKindEqual b = decide (a.sameKindCompare b = some .eq) := by
  cases a <;> cases b <;> try rfl
  case int.int i j => simp [sameKindEqual, sameKindCompare, Int32.toInt_inj]
  case long.long i j => simp [sameKindEqual, sameKindCompare, Int64.toInt_inj]

theorem sameKindCompare_swap (a b : Number) :
    b.sameKindCompare a = (a.sameKindCompare b).map Ordering.swap := by
  cases a <;> cases b <;> try rfl
  case int.int i j => exact congrArg some Std.OrientedCmp.eq_swap
  case long.long i j => exact congrArg some Std.OrientedCmp.eq_swap
  case float.float x y => exact Floating.compare_swap x y
  case double.double x y => exact Floating.compare_swap x y

theorem compareAt_swap (k : NumericKind) (a b : Number) :
    compareAt k b a = (compareAt k a b).map Ordering.swap :=
  sameKindCompare_swap _ _

/-- **But for an integer beside a single, numbers are compared at the wider of their kinds.** -/
theorem compare_of_alike {a b : Number} (alike : ¬MixesSingle a b) :
    a.compare b = compareAt (a.kind.max b.kind) a b := by
  cases a <;> cases b <;> simp [MixesSingle] at alike <;> try rfl
  case int.int i j =>
    simp [compare, compareAt, kind, NumericKind.max, cast, widen, WideNumber.toInt,
      sameKindCompare]
  case float.float x y =>
    have back : ∀ z : Single, ((z.cast : Double).cast : Single).amount = z.amount :=
      fun z => amount_cast_of_amount (amount_toDouble z)
    have singles : ((x.cast : Double).cast : Single).compare (y.cast : Double).cast =
        (x.cast : Double).compare y.cast := by
      rw [compare_eq_amount, back, back, ← compare_eq_amount, compare_toDouble]
    exact singles.symm

/-- An integer beside a single is compared as doubles are. -/
theorem compare_of_mixesSingle {a b : Number} (mixed : MixesSingle a b) :
    a.compare b = compareAt .double a b := by
  cases a <;> cases b <;> cases mixed <;> rfl

/-- An integer and a single have one order as doubles and as singles, or are equal singles. -/
theorem compareAt_integral {a : Number} {i : Int64} (whole : a.widen = .integral i) (x : Single) :
    compareAt .double a (.float x) = compareAt .float a (.float x) ∨
      compareAt .float a (.float x) = some .eq := by
  obtain ⟨reach_single, reach_double⟩ := reaches_long i
  have moved : (x.cast : Double).amount = ((x.cast : Double).cast : Single).amount := by
    rw [amount_cast_of_amount (amount_toDouble x), amount_toDouble]
  have coarser := compare_ofInt_coarser FloatFormat.single_coarser reach_single reach_double moved
  simp only [compareAt, cast, whole]
  exact coarser

/-- **An integer beside a single is ordered as they are at the wider kind, or is equal to it
there.** -/
theorem compareAt_single {a b : Number} (mixed : MixesSingle a b) :
    compareAt .double a b = compareAt .float a b ∨ compareAt .float a b = some .eq := by
  have swapped : ∀ {a : Number} {i : Int64}, a.widen = .integral i → ∀ x : Single,
      compareAt .double (.float x) a = compareAt .float (.float x) a ∨
        compareAt .float (.float x) a = some .eq := by
    intro a i whole x
    rw [compareAt_swap .double a, compareAt_swap .float a]
    rcases compareAt_integral whole x with kept | equal
    · exact .inl (congrArg _ kept)
    · right
      rw [equal]
      rfl
  cases a <;> cases b <;> try cases mixed
  case int.float i x => exact compareAt_integral rfl x
  case long.float i x => exact compareAt_integral rfl x
  case float.int x i => exact swapped rfl x
  case float.long x i => exact swapped rfl x

/-- What an order of numbers says of the equality of values and of their order. -/
theorem looselyEqual_of_compare {a b : Number} {k : NumericKind}
    (order : a.compare b = compareAt k a b) :
    (Value.number a).looselyEqual (.number b) = (a.cast k).sameKindEqual (b.cast k) := by
  rw [Value.looselyEqual, equal_eq_compare, sameKindEqual_eq_compare, order, compareAt]

/-- **Comparison promotes as arithmetic does, but for an integer beside a single.** Else two numbers
are equal exactly if they are at the wider of their kinds, and ordered as they are there. An integer
and a single are equal and ordered as doubles; the order is that of the wider kind unless the two
are equal there. -/
theorem comparison_promotes (view : View) (operator : String) (a b : Number) :
    let k := a.kind.max b.kind
    (¬MixesSingle a b →
      (Value.number a).looselyEqual (.number b) = (a.cast k).sameKindEqual (b.cast k) ∧
      (Value.number a).compare view operator (.number b) =
        .ok ((a.cast k).sameKindCompare (b.cast k))) ∧
    (MixesSingle a b →
      (Value.number a).looselyEqual (.number b) =
        (a.cast .double).sameKindEqual (b.cast .double) ∧
      (Value.number a).compare view operator (.number b) =
        .ok ((a.cast .double).sameKindCompare (b.cast .double)) ∧
      ((a.cast .double).sameKindCompare (b.cast .double) =
          (a.cast k).sameKindCompare (b.cast k) ∨
        (a.cast k).sameKindCompare (b.cast k) = some .eq)) := by
  intro k
  constructor
  · intro alike
    have order := compare_of_alike alike
    exact ⟨looselyEqual_of_compare order, congrArg Except.ok order⟩
  · intro mixed
    have order := compare_of_mixesSingle mixed
    have single : k = .float := by
      cases a <;> cases b <;> cases mixed <;> rfl
    refine ⟨looselyEqual_of_compare order, congrArg Except.ok order, ?_⟩
    rw [single]
    exact compareAt_single mixed

/-- The narrow integer `1` is less than the wide integer `2`, compared as wide ones; the integer `3`
is greater than the single `2`, compared as doubles. -/
theorem comparison_promotes_of_small :
    let view : View := fun _ => none
    let two : Number := .float (ofInt 2)
    (¬MixesSingle (.int 1) (.long 2) ∧
      (Value.int 1).compare view "<" (.long 2) = .ok (some .lt)) ∧
    (MixesSingle (.int 3) two ∧
      (Value.int 3).compare view "<" (.number two) = .ok (some .gt)) := by
  intro view two
  have alike : ¬MixesSingle (.int 1) (.long 2) := id
  have mixed : MixesSingle (.int 3) two := trivial
  have doubles : ((Number.int 3).cast .double).sameKindCompare (two.cast .double) = some .gt := by
    decide +kernel
  refine ⟨⟨alike, ((comparison_promotes view "<" (.int 1) (.long 2)).1 alike).2⟩, mixed, ?_⟩
  rw [((comparison_promotes view "<" (.int 3) two).2 mixed).2.1, doubles]

/-- The integer `16777217` is greater than the single `16777216`, though the two are equal at the
wider of their kinds, which is that of singles, and their difference is zero. -/
theorem comparison_overlooks_promotion :
    let view : View := fun _ => none
    let a : Number := .int 16777217
    let b : Number := .float (ofInt 16777216)
    a.kind.max b.kind = .float ∧
      (a.cast .float).sameKindEqual (b.cast .float) = true ∧
      (a.cast .float).sameKindCompare (b.cast .float) = some .eq ∧
      (Value.number a).looselyEqual (.number b) = false ∧
      (Value.number a).compare view "<" (.number b) = .ok (some .gt) ∧
      (Value.number a).arithmetic view .subtract (.number b) = .ok (.float (ofInt 0)) := by
  intro view a b
  have difference : ArithmeticOperator.subtract.onNumbers a b = some (.float (ofInt 0)) := by
    decide +kernel
  have equal_singles : (a.cast .float).sameKindCompare (b.cast .float) = some .eq := by
    decide +kernel
  have greater : a.compare b = some .gt := by decide +kernel
  refine ⟨rfl, ?_, equal_singles, ?_, congrArg Except.ok greater, ?_⟩
  · rw [sameKindEqual_eq_compare, equal_singles]
    rfl
  · rw [Value.looselyEqual, equal_eq_compare, greater]
    rfl
  · rw [Value.arithmetic_number, difference]

end Number

end HostExpr
