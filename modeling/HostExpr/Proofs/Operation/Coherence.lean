import HostExpr.Eval.Evaluate
import HostExpr.Proofs.Floating.Order
import HostExpr.Proofs.Value.Induction

/-!
Equality and order belong together.

Equality is defined on all values and order on some of them, each with cases of its own. Numbers are
equal exactly when the order finds them equal (`Number.equal_eq_compare`), at any two kinds. On
values the same holds wherever there is an order, so of `<`, `==` and `>` one is true unless `nan`
is an operand. Equality across kinds is not transitive where floating point numbers take part; on
values without them it is equality of what the values become when their integers are made wide
(`looselyEqual_iff_widened`), and so an equivalence. The main result is `order_coherent`.
-/

namespace HostExpr

namespace Number

open Floating

/-- Numbers are equal exactly when the order finds them equal. -/
theorem equal_eq_compare (a b : Number) : a.equal b = decide (a.compare b = some .eq) := by
  unfold equal compare
  cases a.widen with
  | integral x =>
    cases b.widen with
    | integral y => simp [Int64.toInt_inj]
    | real y => rfl
  | real x => cases b.widen <;> rfl

/-- Exchanging two numbers turns their order round. -/
theorem compare_swap (a b : Number) : b.compare a = (a.compare b).map Ordering.swap := by
  unfold compare
  cases a.widen with
  | integral x =>
    cases b.widen with
    | integral y => simp [Std.OrientedCmp.eq_swap (a := y.toInt) (b := x.toInt)]
    | real y => exact Floating.compare_swap _ _
  | real x => cases b.widen <;> exact Floating.compare_swap _ _

theorem equal_comm (a b : Number) : a.equal b = b.equal a := by
  rw [equal_eq_compare, equal_eq_compare, compare_swap a b]
  cases a.compare b with
  | none => rfl
  | some o => cases o <;> rfl

/-- Two numbers have no order exactly when one of them is `nan`. -/
theorem compare_eq_none_iff {a b : Number} : a.compare b = none ↔ a.isNan ∨ b.isNan := by
  have whole : ∀ i : Int64, (ofInt i.toInt : Double).isNan = false :=
    fun i => isNan_roundQuotient _ _ _
  unfold compare isNan
  cases a.widen with
  | integral x =>
    cases b.widen with
    | integral y => simp
    | real y => simp [Floating.compare_eq_none_iff, WideNumber.toDouble, whole]
  | real x =>
    cases b.widen <;> simp [Floating.compare_eq_none_iff, WideNumber.toDouble, whole]

/-- Numbers that are equal within their kind are equal. -/
theorem equal_of_sameKindEqual {a b : Number} (h : a.sameKindEqual b) : a.equal b := by
  cases a <;> cases b <;> try cases h
  case int.int i j =>
    obtain rfl : i = j := by simpa [sameKindEqual] using h
    simp [equal, widen]
  case long.long i j => simpa [equal, widen, sameKindEqual] using h
  case float.float x y =>
    simpa [equal, widen, sameKindEqual, WideNumber.toDouble, Floating.equal, compare_toDouble]
      using h
  case double.double x y => exact h

end Number

namespace Value

/-! ### Order -/

/-- The pairs of values that have an order: two numbers, two strings or two booleans. -/
inductive Comparable : Value → Value → Prop where
  | numbers (x y : Number) : Comparable (.number x) (.number y)
  | strings (x y : String) : Comparable (.string x) (.string y)
  | booleans (x y : Bool) : Comparable (.boolean x) (.boolean y)

theorem Comparable.symm {a b : Value} (h : Comparable a b) : Comparable b a := by
  cases h with
  | numbers x y => exact .numbers y x
  | strings x y => exact .strings y x
  | booleans x y => exact .booleans y x

variable {view : View} {operator : String} {a b : Value}

/-- Two values have an order exactly if they are comparable; it may be that of unordered numbers. -/
theorem exists_compare_eq_ok_iff :
    (∃ o, a.compare view operator b = .ok o) ↔ Comparable a b := by
  constructor
  · rintro ⟨o, h⟩
    unfold compare at h
    split at h
    · exact .strings _ _
    · exact .booleans _ _
    · exact .numbers _ _
    · cases h
  · rintro (⟨x, y⟩ | ⟨x, y⟩ | ⟨x, y⟩)
    · exact ⟨_, rfl⟩
    · exact ⟨_, rfl⟩
    · exact ⟨_, rfl⟩

theorem exists_compare_eq_error_iff :
    (∃ e, a.compare view operator b = .error e) ↔ ¬Comparable a b := by
  rw [← @exists_compare_eq_ok_iff view operator a b]
  cases a.compare view operator b <;> simp

/-- Comparable values have no order exactly when both are numbers and one is `nan`. -/
theorem compare_eq_unordered_iff :
    a.compare view operator b = .ok none ↔
      ∃ x y, a = .number x ∧ b = .number y ∧ (x.isNan ∨ y.isNan) := by
  constructor
  · intro h
    cases exists_compare_eq_ok_iff.mp ⟨_, h⟩ with
    | numbers x y => exact ⟨x, y, rfl, rfl, Number.compare_eq_none_iff.mp (Except.ok.inj h)⟩
    | strings x y => cases h
    | booleans x y => cases h
  · rintro ⟨x, y, rfl, rfl, nan⟩
    exact congrArg Except.ok (Number.compare_eq_none_iff.mpr nan)

/-- Exchanging comparable values turns their order round. -/
theorem compare_swap (h : Comparable a b) :
    b.compare view operator a = (a.compare view operator b).map (Option.map Ordering.swap) := by
  cases h with
  | numbers x y => exact congrArg Except.ok (Number.compare_swap x y)
  | strings x y => exact congrArg (fun o => Except.ok (some o)) Std.OrientedCmp.eq_swap
  | booleans x y => exact congrArg (fun o => Except.ok (some o)) Std.OrientedCmp.eq_swap

/-- Values are equal in their order exactly if they are comparable and equal. -/
theorem compare_eq_equal_iff :
    a.compare view operator b = .ok (some .eq) ↔ Comparable a b ∧ a.looselyEqual b := by
  have same_order : Comparable a b →
      (a.compare view operator b = .ok (some .eq) ↔ a.looselyEqual b) := by
    intro h
    cases h with
    | numbers x y => simp [compare, looselyEqual, Number.equal_eq_compare]
    | strings x y => simp [compare, looselyEqual, strictlyEqual]
    | booleans x y => simp [compare, looselyEqual, strictlyEqual]
  constructor
  · intro h
    have comparable := exists_compare_eq_ok_iff.mp ⟨_, h⟩
    exact ⟨comparable, (same_order comparable).mp h⟩
  · rintro ⟨comparable, equal⟩
    exact (same_order comparable).mpr equal

/-! ### Equality -/

/-- Lists are equal exactly when their elements are, one by one. -/
theorem looselyEqual_list (as bs : List Value) :
    (Value.list as).looselyEqual (.list bs) ↔ List.Forall₂ (fun a b => a.looselyEqual b) as bs := by
  rw [looselyEqual]
  induction as generalizing bs with
  | nil => cases bs <;> simp [looselyEqualAll]
  | cons a as ih => cases bs <;> simp [looselyEqualAll, ih]

theorem strictlyEqual_list (as bs : List Value) :
    (Value.list as).strictlyEqual (.list bs) ↔
      List.Forall₂ (fun a b => a.strictlyEqual b) as bs := by
  rw [strictlyEqual]
  induction as generalizing bs with
  | nil => cases bs <;> simp [strictlyEqualAll]
  | cons a as ih => cases bs <;> simp [strictlyEqualAll, ih]

/-- Equality of values that are neither numbers nor lists is being the same. -/
theorem looselyEqual_iff_eq (h : a.isNumeric = false ∧ a.list? = none) :
    a.looselyEqual b ↔ a = b := by
  cases a <;> simp [isNumeric, number?, list?] at h <;>
    cases b <;> simp [looselyEqual, strictlyEqual]

/-- Equality does not depend on the side. -/
theorem looselyEqual_symm (h : a.looselyEqual b) : b.looselyEqual a := by
  induction a generalizing b with
  | list items ih =>
    cases b with
    | list others =>
      rw [looselyEqual_list] at h ⊢
      have each := (List.forall₂_and_left _ _).mpr ⟨ih, h⟩
      exact (each.imp fun v w both => both.1 both.2).flip
    | _ => simp [looselyEqual, strictlyEqual] at h
  | number n =>
    cases b with
    | number k => simpa [looselyEqual, Number.equal_comm] using h
    | _ => simp [looselyEqual, strictlyEqual] at h
  | _ =>
    obtain rfl := (looselyEqual_iff_eq ⟨rfl, rfl⟩).mp h
    exact h

/-- Values that are strictly equal are equal. -/
theorem looselyEqual_of_strictlyEqual (h : a.strictlyEqual b) : a.looselyEqual b := by
  induction a generalizing b with
  | list items ih =>
    cases b with
    | list others =>
      rw [strictlyEqual_list] at h
      rw [looselyEqual_list]
      have each := (List.forall₂_and_left _ _).mpr ⟨ih, h⟩
      exact each.imp fun v w both => both.1 both.2
    | _ => simp [strictlyEqual] at h
  | number n =>
    cases b with
    | number k =>
      rw [strictlyEqual] at h
      rw [looselyEqual]
      exact Number.equal_of_sameKindEqual h
    | _ => simp [strictlyEqual] at h
  | _ => simpa [looselyEqual] using h

/-! ### Values without floating point numbers -/

/-- Nowhere in the value is a floating point number. -/
inductive FloatFree : Value → Prop where
  | null : FloatFree .null
  | boolean (b : Bool) : FloatFree (.boolean b)
  | int (i : Int32) : FloatFree (.int i)
  | long (i : Int64) : FloatFree (.long i)
  | string (s : String) : FloatFree (.string s)
  | list (items : List Value) (each : ∀ v ∈ items, FloatFree v) : FloatFree (.list items)
  | object (ref : ObjectRef) : FloatFree (.object ref)

mutual

def widened : Value → Value
  | .number (.int i) => .long i.toInt64
  | .list items => .list (widenedAll items)
  | v => v

def widenedAll : List Value → List Value
  | [] => []
  | v :: vs => widened v :: widenedAll vs

end

@[simp] theorem widenedAll_eq_map (vs : List Value) : widenedAll vs = vs.map widened := by
  induction vs with
  | nil => rfl
  | cons v vs ih => simp [widenedAll, ih]

/-- Lists are equal but for the widths of integers if their elements are, one by one. -/
theorem forall₂_iff_widened {as bs : List Value}
    (each : ∀ a ∈ as, ∀ b ∈ bs, (a.looselyEqual b ↔ a.widened = b.widened)) :
    List.Forall₂ (fun a b => a.looselyEqual b) as bs ↔ as.map widened = bs.map widened := by
  induction as generalizing bs with
  | nil => cases bs <;> simp
  | cons a as ih =>
    cases bs with
    | nil => simp
    | cons b bs =>
      have first := each a List.mem_cons_self b List.mem_cons_self
      have rest := ih fun v mem w mem' =>
        each v (List.mem_cons_of_mem a mem) w (List.mem_cons_of_mem b mem')
      simp [first, rest]

/-- **Values without floating point numbers are equal if they are the same but for the widths of
integers.** -/
theorem looselyEqual_iff_widened (ha : FloatFree a) (hb : FloatFree b) :
    a.looselyEqual b ↔ a.widened = b.widened := by
  induction a generalizing b with
  | list items ih =>
    cases ha with
    | list _ each =>
      cases hb with
      | list others each' =>
        rw [looselyEqual_list, forall₂_iff_widened fun v mem w mem' =>
          ih v mem (each v mem) (each' w mem')]
        simp [widened]
      | _ => simp [looselyEqual, strictlyEqual, widened]
  | number n =>
    cases ha with
    | int i =>
      cases hb <;> simp [looselyEqual, strictlyEqual, widened, Number.equal, Number.widen]
    | long i =>
      cases hb <;> simp [looselyEqual, strictlyEqual, widened, Number.equal, Number.widen]
  | _ =>
    rw [looselyEqual_iff_eq ⟨rfl, rfl⟩]
    cases hb <;> simp [widened]

/-! ### Both -/

/-- Of the relations `<`, `==` and `>` exactly one is true, and `<=` and `>=` are unions of them. -/
def Trichotomous (view : View) (a b : Value) : Prop :=
  ∃ less equal greater : Bool,
    Context.strictBinary view .lessThan a b = .ok (.boolean less) ∧
    Context.strictBinary view .equal a b = .ok (.boolean equal) ∧
    Context.strictBinary view .greaterThan a b = .ok (.boolean greater) ∧
    [less, equal, greater].count true = 1 ∧
    Context.strictBinary view .lessThanEqual a b = .ok (.boolean (less || equal)) ∧
    Context.strictBinary view .greaterThanEqual a b = .ok (.boolean (greater || equal))

/-- How equality and order belong together on two values. -/
structure Coherent (view : View) (a b : Value) : Prop where
  /-- There is an order between comparable values and no others. -/
  error_iff : ∀ operator, (∃ e, a.compare view operator b = .error e) ↔ ¬Comparable a b
  /-- It does not matter which one stands first. -/
  comparable_comm : Comparable a b ↔ Comparable b a
  unordered_iff : ∀ operator, a.compare view operator b = .ok none ↔
    ∃ x y, a = .number x ∧ b = .number y ∧ (x.isNan ∨ y.isNan)
  swapped : Comparable a b → ∀ operator,
    b.compare view operator a = (a.compare view operator b).map (Option.map Ordering.swap)
  equal_iff : ∀ operator,
    a.compare view operator b = .ok (some .eq) ↔ Comparable a b ∧ a.looselyEqual b
  trichotomous : Comparable a b → (∀ x, a = .number x ∨ b = .number x → ¬x.isNan) →
    Trichotomous view a b
  symmetric : a.looselyEqual b = b.looselyEqual a
  strict : a.strictlyEqual b → a.looselyEqual b

/-- Comparable values that are not `nan` have one order under every operator. -/
theorem exists_order (comparable : Comparable a b)
    (numbers : ∀ x, a = .number x ∨ b = .number x → ¬x.isNan) :
    ∃ o, ∀ operator, a.compare view operator b = .ok (some o) := by
  cases comparable with
  | numbers x y =>
    cases order : x.compare y with
    | none =>
      rcases Number.compare_eq_none_iff.mp order with nan | nan
      · exact absurd nan (numbers x (.inl rfl))
      · exact absurd nan (numbers y (.inr rfl))
    | some o => exact ⟨o, fun operator => congrArg Except.ok order⟩
  | strings x y => exact ⟨_, fun operator => rfl⟩
  | booleans x y => exact ⟨_, fun operator => rfl⟩

/-- An order makes exactly one of the relations hold. -/
theorem trichotomous_of_order {o : Ordering} (comparable : Comparable a b)
    (order : ∀ operator, a.compare view operator b = .ok (some o)) :
    Trichotomous view a b := by
  have ordered : ∀ (test : Ordering → Bool) (operator : String),
      (a.compare view operator b).map (fun order => Value.boolean (order.any test)) =
        .ok (.boolean (test o)) := by
    intro test operator
    rw [order]
    rfl
  have equal : a.looselyEqual b = decide (o = .eq) := by
    have equal_iff : o = .eq ↔ a.looselyEqual b := by
      have iff := @compare_eq_equal_iff view "" a b
      rw [order] at iff
      simpa [comparable] using iff
    rw [Bool.eq_iff_iff, ← equal_iff, decide_eq_true_iff]
  refine ⟨o.isLT, decide (o = .eq), o.isGT, ordered _ _, ?_, ordered _ _, ?_, ?_, ?_⟩
  · rw [Context.strictBinary, equal]
  · cases o <;> rfl
  · refine (ordered _ _).trans ?_
    cases o <;> rfl
  · refine (ordered _ _).trans ?_
    cases o <;> rfl

/-- **Equality and order belong together**, and equality is an equivalence where no floating point
number takes part. -/
theorem order_coherent (view : View) :
    (∀ a b, Coherent view a b) ∧
    Equivalence fun a b : {v : Value // v.FloatFree} => (a.1.looselyEqual b.1 : Prop) := by
  constructor
  · intro a b
    constructor
    · exact fun _ => exists_compare_eq_error_iff
    · exact ⟨Comparable.symm, Comparable.symm⟩
    · exact fun _ => compare_eq_unordered_iff
    · exact fun comparable _ => compare_swap comparable
    · exact fun _ => compare_eq_equal_iff
    · intro comparable numbers
      obtain ⟨o, order⟩ := exists_order comparable numbers
      exact trichotomous_of_order comparable order
    · exact Bool.eq_iff_iff.mpr ⟨looselyEqual_symm, looselyEqual_symm⟩
    · exact looselyEqual_of_strictlyEqual
  · constructor
    · intro a
      exact (looselyEqual_iff_widened a.2 a.2).mpr rfl
    · intro a b
      exact looselyEqual_symm
    · intro a b c first second
      rw [looselyEqual_iff_widened a.2 b.2] at first
      rw [looselyEqual_iff_widened b.2 c.2] at second
      exact (looselyEqual_iff_widened a.2 c.2).mpr (first.trans second)

/-- The narrow integer `2` and the single `2` are equal and not less; a list with a narrow integer
equals one with the wide integer, on either side. -/
theorem order_coherent_of_two :
    let view : View := fun _ => none
    let two : Value := .int 2
    let single : Value := .float (Floating.ofInt 2)
    let narrow : Value := .list [.int 2, .null]
    let wide : Value := .list [.long 2, .null]
    (Comparable two single ∧ two.compare view "<" single = .ok (some .eq)) ∧
      two.looselyEqual single ∧ Trichotomous view two single ∧
      narrow.FloatFree ∧ wide.FloatFree ∧ wide.looselyEqual narrow := by
  intro view two single narrow wide
  obtain ⟨coherent, equivalence⟩ := order_coherent view
  have same : two.compare view "<" single = .ok (some .eq) := by decide +kernel
  have numbers : ∀ x, two = .number x ∨ single = .number x → ¬x.isNan := by
    rintro x (left | right)
    · obtain rfl := Value.number.inj left
      decide
    · obtain rfl := Value.number.inj right
      decide +kernel
  have free : ∀ v : Value, v.FloatFree → (Value.list [v, .null]).FloatFree := by
    intro v v_free
    refine .list _ fun w mem => ?_
    rcases List.mem_cons.mp mem with rfl | mem
    · exact v_free
    · obtain rfl := List.mem_singleton.mp mem
      exact .null
  have equal_lists : narrow.looselyEqual wide := by decide
  obtain ⟨comparable, equal⟩ := ((coherent two single).equal_iff "<").mp same
  refine ⟨⟨comparable, same⟩, equal, (coherent two single).trichotomous comparable numbers,
    free _ (.int 2), free _ (.long 2), ?_⟩
  exact equivalence.symm (x := ⟨narrow, free _ (.int 2)⟩) (y := ⟨wide, free _ (.long 2)⟩)
    equal_lists

end Value

end HostExpr
