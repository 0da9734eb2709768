import HostExpr.Proofs.Floating.Exactness
import HostExpr.Proofs.Floating.Order

/-!
What rounding does to the order.

`Nearest` says where rounding takes a magnitude: to the grid that the format has for numbers of its
size, and there to a nearest place. Rounding therefore never crosses a number of the format
(`Nearest.le_of_le`, `Nearest.ge_of_ge`), and a format whose grids are coarser takes a magnitude to
a number of its own if a finer one does (`Nearest.coarser`). So an integer beside a number keeps its
order in every format, or becomes equal to the number (`compare_ofInt`), and what is equal in a
finer format is equal in a coarser one (`amount_ofInt_coarser`).
-/

namespace HostExpr

/-- The grids of the format are coarser than those of another one. -/
structure FloatFormat.Coarser (f g : FloatFormat) : Prop where
  fractionBits_lt : f.fractionBits < g.fractionBits
  least_lt : g.least < f.least

theorem FloatFormat.single_coarser : single.Coarser double :=
  ⟨by decide, by decide⟩

/-- The format has finite numbers beyond a magnitude. -/
structure FloatFormat.Reaches (f : FloatFormat) (q : ℚ) : Prop where
  room : f.least < f.greatest
  lt : q < 2 ^ (f.fractionBits + f.greatest)

/-- The format has an exponent for what was rounded to `m · 2 ^ e`, where `m` may be the power of
two next to its significands. -/
def FloatFormat.HasRoom (f : FloatFormat) (m : Nat) (e : Int) : Prop :=
  e < f.greatest ∨ e = f.greatest ∧ m < Nat.pow 2 (f.fractionBits + 1)

namespace Floating

variable {f g : FloatFormat}

/-! ### Grids -/

/-- The format rounds the magnitude `q` to `m · 2 ^ e`: the grid of `2 ^ e` is the one that it has
for numbers of that size, and `m` is a nearest place on it. -/
structure Nearest (f : FloatFormat) (q : ℚ) (m : Nat) (e : Int) : Prop where
  least_le : f.least ≤ e
  fine : e = f.least ∨ (2 : ℚ) ^ (f.fractionBits + e) ≤ q
  lt : q < 2 ^ (f.fractionBits + 1 + e)
  close : |m * (2 : ℚ) ^ e - q| ≤ 2 ^ e / 2

/-- The nearest integer is within one half. -/
theorem nearestEven_close {a b : Nat} (pos : 0 < b) : |(nearestEven a b : ℚ) - a / b| ≤ 1 / 2 := by
  have bounds : 2 * (nearestEven a b * b) ≤ 2 * a + b ∧ 2 * a ≤ 2 * (nearestEven a b * b) + b := by
    have parts := Nat.div_add_mod' a b
    have small := Nat.mod_lt a pos
    have next : (a / b + 1) * b = a / b * b + b := Nat.add_one_mul _ _
    unfold nearestEven
    dsimp only
    split
    · omega
    · split
      · omega
      · rcases Nat.mod_two_eq_zero_or_one (a / b) with even | odd
        · rw [even, Nat.add_zero]
          omega
        · rw [odd]
          omega
  have positive : (0 : ℚ) < b := by exact_mod_cast pos
  have lower : 2 * (nearestEven a b * b : ℚ) ≤ 2 * a + b := by exact_mod_cast bounds.1
  have upper : 2 * (a : ℚ) ≤ 2 * (nearestEven a b * b) + b := by exact_mod_cast bounds.2
  have scaled : (nearestEven a b : ℚ) - a / b = (nearestEven a b * b - a) / b := by
    field_simp
  rw [scaled, abs_div, abs_of_pos positive, div_le_iff₀ positive, abs_le]
  constructor <;> linarith

namespace Nearest

variable {q : ℚ} {m n : Nat} {e d : Int}

/-- A place less than one step beyond another one is not beyond it. -/
theorem le_of_lt_step (h : (m : ℚ) * 2 ^ e < n * 2 ^ e + 2 ^ e) : m ≤ n := by
  have unit : (0 : ℚ) < 2 ^ e := by positivity
  have scaled : (m : ℚ) * 2 ^ e < (n + 1) * 2 ^ e := by linarith
  have places : (m : ℚ) < n + 1 := lt_of_mul_lt_mul_right scaled unit.le
  exact Nat.lt_add_one_iff.mp (by exact_mod_cast places)

/-- Rounding does not pass a place of the grid from below. -/
theorem le_place (h : Nearest f q m e) (below : q ≤ n * (2 : ℚ) ^ e) : m ≤ n := by
  have unit : (0 : ℚ) < 2 ^ e := by positivity
  have close := (abs_le.mp h.close).2
  exact le_of_lt_step (by linarith)

/-- Nor from above. -/
theorem place_le (h : Nearest f q m e) (above : n * (2 : ℚ) ^ e ≤ q) : n ≤ m := by
  have unit : (0 : ℚ) < 2 ^ e := by positivity
  have close := (abs_le.mp h.close).1
  exact le_of_lt_step (by linarith)

/-- A magnitude of at most half a step of the finest grid is rounded to zero. -/
theorem zero (nonneg : 0 ≤ q) (small : q ≤ 2 ^ f.least / 2) : Nearest f q 0 f.least := by
  have unit : (0 : ℚ) < 2 ^ f.least := by positivity
  refine ⟨le_refl _, .inl rfl, ?_, ?_⟩
  · calc q < 2 ^ f.least := by linarith
      _ ≤ 2 ^ (f.fractionBits + 1 + f.least) := zpow_le_zpow_right₀ one_le_two (by omega)
  · rw [Nat.cast_zero, zero_mul, zero_sub, abs_neg, abs_of_nonneg nonneg]
    exact small

/-- A significand is at most the next power of two. -/
theorem le_two_pow (h : Nearest f q m e) : m ≤ Nat.pow 2 (f.fractionBits + 1) := by
  refine h.le_place ?_
  rw [natCast_pow_two, ← zpow_natCast, ← zpow_add₀ two_ne_zero]
  exact h.lt.le

/-- What is rounded is no less than the first number of its grid, nor what it is rounded to, unless
the grid is the finest one. -/
theorem full (h : Nearest f q m e) (coarser : e ≠ f.least) :
    (2 : ℚ) ^ (f.fractionBits + e) ≤ q ∧ Nat.pow 2 f.fractionBits ≤ m := by
  have first := h.fine.resolve_left coarser
  refine ⟨first, h.place_le ?_⟩
  rwa [natCast_pow_two, ← zpow_natCast, ← zpow_add₀ two_ne_zero]

/-- A number of the format under a smaller exponent is no place of the grid: it lies below it. -/
theorem lt_of_held (held : f.Holds n d) (finer : d < e) :
    (n : ℚ) * 2 ^ d < 2 ^ (f.fractionBits + e) := by
  calc (n : ℚ) * 2 ^ d < 2 ^ (f.fractionBits + 1) * 2 ^ d := by
        refine mul_lt_mul_of_pos_right ?_ (by positivity)
        exact_mod_cast held.significand_lt
    _ = 2 ^ ((f.fractionBits : Int) + 1 + d) := by
        rw [← zpow_natCast, ← zpow_add₀ two_ne_zero, Nat.cast_succ]
    _ ≤ 2 ^ (f.fractionBits + e) := zpow_le_zpow_right₀ one_le_two (by omega)

/-- A number under a greater exponent is a place of the grid. -/
theorem eq_place (coarser : e ≤ d) :
    (n : ℚ) * 2 ^ d = (n * Nat.pow 2 (d - e).toNat : Nat) * 2 ^ e := by
  rw [Nat.cast_mul, natCast_pow_two, mul_assoc, ← zpow_natCast, ← zpow_add₀ two_ne_zero]
  congr 2
  omega

/-- **Rounding does not pass a number of the format from below.** -/
theorem le_of_le (h : Nearest f q m e) (held : f.Holds n d) (below : q ≤ n * (2 : ℚ) ^ d) :
    (m : ℚ) * 2 ^ e ≤ n * 2 ^ d := by
  rcases le_or_gt e d with coarser | finer
  · rw [eq_place coarser] at below ⊢
    refine mul_le_mul_of_nonneg_right ?_ (by positivity)
    exact_mod_cast h.le_place below
  · have unlike : e ≠ f.least := by
      have := held.least_le
      omega
    linarith [(h.full unlike).1, lt_of_held held finer]

/-- **Nor from above.** -/
theorem ge_of_ge (h : Nearest f q m e) (held : f.Holds n d) (above : n * (2 : ℚ) ^ d ≤ q) :
    (n : ℚ) * 2 ^ d ≤ m * 2 ^ e := by
  rcases le_or_gt e d with coarser | finer
  · rw [eq_place coarser] at above ⊢
    refine mul_le_mul_of_nonneg_right ?_ (by positivity)
    exact_mod_cast h.place_le above
  · have unlike : e ≠ f.least := by
      have := held.least_le
      omega
    calc (n : ℚ) * 2 ^ d ≤ 2 ^ (f.fractionBits + e) := (lt_of_held held finer).le
      _ = 2 ^ f.fractionBits * 2 ^ e := by rw [← zpow_natCast, ← zpow_add₀ two_ne_zero]
      _ ≤ m * 2 ^ e := by
        refine mul_le_mul_of_nonneg_right ?_ (by positivity)
        exact_mod_cast (h.full unlike).2

/-- **What a finer format takes to a number of a coarser one, the coarser one does too.** -/
theorem coarser {k : Nat} {c : Int} (coarse : f.Coarser g) (hf : Nearest f q m e)
    (hg : Nearest g q n d) (held : f.Holds k c) (same : (n : ℚ) * 2 ^ d = k * 2 ^ c) :
    (m : ℚ) * 2 ^ e = k * 2 ^ c := by
  have finer : d < e := by
    rcases hg.fine with finest | first
    · have := coarse.least_lt
      have := hf.least_le
      omega
    · have := (zpow_lt_zpow_iff_right₀ one_lt_two).mp (first.trans_lt hf.lt)
      have := coarse.fractionBits_lt
      omega
  have on_grid : e ≤ c := by
    by_cases finest : e = f.least
    · exact finest ▸ held.least_le
    -- The first number of the coarser grid is a place of the finer one.
    · have first := (hf.full finest).1
      rw [← one_mul ((2 : ℚ) ^ _), ← Nat.cast_one, eq_place (e := d) (by omega)] at first
      have places := Nat.cast_le (α := ℚ).mpr (hg.place_le first)
      have step : (0 : ℚ) ≤ 2 ^ d := by positivity
      have reached := mul_le_mul_of_nonneg_right places step
      rw [← eq_place (by omega), Nat.cast_one, one_mul, same] at reached
      by_contra below
      exact absurd (lt_of_held held (not_le.mp below)) (not_lt.mpr reached)
  have half : (2 : ℚ) ^ d ≤ 2 ^ e / 2 := by
    calc (2 : ℚ) ^ d ≤ 2 ^ (e - 1) := zpow_le_zpow_right₀ one_le_two (by omega)
      _ = 2 ^ e / 2 := by rw [zpow_sub₀ two_ne_zero, zpow_one]
  have unit : (0 : ℚ) < 2 ^ e := by positivity
  have close_f := abs_le.mp hf.close
  have close_g := abs_le.mp hg.close
  rw [same, eq_place on_grid] at close_g
  rw [eq_place on_grid]
  generalize k * Nat.pow 2 (c - e).toNat = p at close_g ⊢
  have m_le : m ≤ p := le_of_lt_step (e := e) (by linarith)
  have p_le : p ≤ m := le_of_lt_step (e := e) (by linarith)
  rw [le_antisymm m_le p_le]

end Nearest

/-! ### Rounding -/

/-- A significand that may have been rounded up to the next power of two is kept. -/
theorem amount_ofRounded {q : ℚ} {m : Nat} {e : Int} (negative : Bool) (h : Nearest f q m e)
    (room : f.HasRoom m e) :
    (ofRounded negative m e : Floating f).amount = .exact (rational negative m e) := by
  have normal : Nat.pow 2 f.fractionBits ≤ m ∨ e = f.least := by
    by_cases finest : e = f.least
    · exact .inr finest
    · exact .inl (h.full finest).2
  rcases h.le_two_pow.lt_or_eq with less | carried
  · have le_greatest : e ≤ f.greatest := room.elim le_of_lt fun last => last.1.le
    have canonical : f.Canonical m e := ⟨less, h.least_le, le_greatest, normal⟩
    rw [ofRounded, dif_pos canonical, amount]
  · have double : m = 2 * Nat.pow 2 f.fractionBits := by
      rw [carried]
      exact Nat.pow_succ'
    have halved : m / 2 = Nat.pow 2 f.fractionBits := by omega
    have positive := Nat.two_pow_pos f.fractionBits
    have next : e + 1 ≤ f.greatest := room.resolve_right fun last => last.2.ne carried
    have not_canonical : ¬f.Canonical m e := fun canonical =>
      canonical.significand_lt.ne carried
    have canonical : f.Canonical (m / 2) (e + 1) := by
      refine ⟨?_, by have := h.least_le; omega, next, .inl halved.ge⟩
      rw [halved]
      exact Nat.pow_lt_pow_right one_lt_two (Nat.lt_succ_self _)
    rw [ofRounded, dif_neg not_canonical, dif_pos canonical, amount, rational, rational, double,
      zpow_add₀ two_ne_zero, zpow_one]
    cases negative <;> simp [signed] <;> ring

/-- Rounding shifts a quotient so that its integers are the places of a grid. -/
theorem shifted_quotient (a b : Nat) (e : Int) :
    ((a * Nat.pow 2 (-e).toNat : Nat) : ℚ) / (b * Nat.pow 2 e.toNat : Nat) = a / b / 2 ^ e := by
  rw [Nat.cast_mul, Nat.cast_mul, natCast_pow_two, natCast_pow_two, ← zpow_mul_toNat_neg e]
  field_simp

/-- The exponent that rounding chooses for a quotient is that of its grid, and the nearest integer
is a nearest place. -/
theorem nearest_chosen {a b : Nat} (ha : a ≠ 0) (hb : b ≠ 0) :
    let e := max f.least (binaryOrder a b - f.fractionBits)
    Nearest f ((a : ℚ) / b) (nearestEven (a * Nat.pow 2 (-e).toNat) (b * Nat.pow 2 e.toNat)) e := by
  obtain ⟨order_le, lt_order⟩ := binaryOrder_bounds ha hb
  have positive : (0 : ℚ) < b := by positivity
  intro e
  have unit : (0 : ℚ) < 2 ^ e := by positivity
  have divisor_pos : 0 < b * Nat.pow 2 e.toNat :=
    Nat.mul_pos (Nat.pos_of_ne_zero hb) (Nat.two_pow_pos _)
  have close := nearestEven_close (a := a * Nat.pow 2 (-e).toNat) divisor_pos
  rw [shifted_quotient] at close
  constructor
  · exact le_max_left _ _
  · by_cases finest : e = f.least
    · exact .inl finest
    · right
      rw [le_div_iff₀ positive, mul_comm]
      have order : (f.fractionBits : Int) + e = binaryOrder a b := by omega
      rwa [order]
  · rw [div_lt_iff₀ positive, mul_comm]
    refine lt_order.trans_le (mul_le_mul_of_nonneg_left ?_ positive.le)
    exact zpow_le_zpow_right₀ one_le_two (by omega)
  · generalize nearestEven (a * Nat.pow 2 (-e).toNat) (b * Nat.pow 2 e.toNat) = m at close ⊢
    have scaled : (m : ℚ) * 2 ^ e - a / b = (m - a / b / 2 ^ e) * 2 ^ e := by
      field_simp
    rw [scaled, abs_mul, abs_of_pos unit]
    linarith [mul_le_mul_of_nonneg_right close unit.le]

/-- **Rounding a quotient gives a number nearest to it**, if the quotient is within the range of the
format. -/
theorem exists_nearest {a b : Nat} (hb : b ≠ 0) (room : f.least < f.greatest)
    (range : (a : ℚ) / b < 2 ^ (f.fractionBits + f.greatest)) (negative : Bool) :
    ∃ m e, Nearest f ((a : ℚ) / b) m e ∧
      (roundQuotient negative a b : Floating f).amount = .exact (rational negative m e) := by
  by_cases ha : a = 0
  · refine ⟨0, f.least, .zero (by positivity) ?_, ?_⟩
    · rw [ha, Nat.cast_zero, zero_div]
      positivity
    · rw [roundQuotient, if_pos ha, Floating.zero, amount]
  · have near := nearest_chosen (f := f) ha hb
    obtain ⟨order_le, -⟩ := binaryOrder_bounds ha hb
    have positive : (0 : ℚ) < b := by positivity
    have order_lt : (2 : ℚ) ^ binaryOrder a b < 2 ^ (f.fractionBits + f.greatest) := by
      refine lt_of_le_of_lt ?_ range
      rwa [le_div_iff₀ positive, mul_comm]
    have below := (zpow_lt_zpow_iff_right₀ one_lt_two).mp order_lt
    rw [roundQuotient, if_neg ha]
    exact ⟨_, _, near, amount_ofRounded negative near (.inl (by omega))⟩

/-! ### Integers -/

theorem exists_nearest_ofInt {i : Int} (reach : f.Reaches i.natAbs) :
    ∃ m e, Nearest f i.natAbs m e ∧
      (ofInt i : Floating f).amount = .exact (rational (i < 0) m e) := by
  have range : ((i.natAbs : Nat) : ℚ) / (1 : Nat) < 2 ^ (f.fractionBits + f.greatest) := by
    simpa using reach.lt
  simpa [ofInt] using exists_nearest (f := f) one_ne_zero reach.room range (i < 0)

/-- A rational that stands where another one does beside `y`, or has moved up to `y`. -/
theorem compare_eq_or_eq {p r y : ℚ} (le : p ≤ y → r ≤ y) (ge : y ≤ p → y ≤ r) :
    Ord.compare r y = Ord.compare p y ∨ Ord.compare r y = .eq := by
  rcases lt_trichotomy r y with below | same | above
  · have : p < y := not_le.mp fun h => absurd (ge h) (not_le.mpr below)
    exact .inl ((compare_lt_iff_lt.mpr below).trans (compare_lt_iff_lt.mpr this).symm)
  · exact .inr (compare_eq_iff_eq.mpr same)
  · have : y < p := not_le.mp fun h => absurd (le h) (not_le.mpr above)
    exact .inl ((compare_gt_iff_gt.mpr above).trans (compare_gt_iff_gt.mpr this).symm)

/-- What does not cross a magnitude does not cross a number when both have signs. -/
theorem signs_not_crossing {q r y : ℚ} (hq : 0 ≤ q) (hr : 0 ≤ r) (hy : 0 ≤ y)
    (le : q ≤ y → r ≤ y) (ge : y ≤ q → y ≤ r) (s t : Bool) :
    ((if s then -q else q) ≤ (if t then -y else y) →
      (if s then -r else r) ≤ (if t then -y else y)) ∧
    ((if t then -y else y) ≤ (if s then -q else q) →
      (if t then -y else y) ≤ (if s then -r else r)) := by
  cases s <;> cases t <;> simp only [Bool.false_eq_true, if_true, if_false]
  case false.false => exact ⟨le, ge⟩
  case false.true =>
    constructor
    · intro h
      linarith [le (by linarith)]
    · intro h
      linarith
  case true.false =>
    constructor
    · intro h
      linarith
    · intro h
      linarith [le (by linarith)]
  case true.true =>
    constructor
    · intro h
      linarith [ge (by linarith)]
    · intro h
      linarith [le (by linarith)]

theorem intCast_eq_ite (i : Int) :
    (i : ℚ) = if decide (i < 0) then -(i.natAbs : ℚ) else i.natAbs := by
  rw [Nat.cast_natAbs, Int.cast_abs]
  by_cases negative : i < 0
  · have : (i : ℚ) < 0 := by exact_mod_cast negative
    simp [negative, abs_of_neg this]
  · have : (0 : ℚ) ≤ i := by exact_mod_cast not_lt.mp negative
    simp [negative, abs_of_nonneg this]

/-- Rounding an integer does not cross a number of the format. -/
theorem Nearest.not_crosses {i : Int} {m n : Nat} {e d : Int} (h : Nearest f i.natAbs m e)
    (held : f.Holds n d) (t : Bool) :
    ((i : ℚ) ≤ rational t n d → rational (i < 0) m e ≤ rational t n d) ∧
    (rational t n d ≤ i → rational t n d ≤ rational (i < 0) m e) := by
  rw [intCast_eq_ite, rational_eq_ite, rational_eq_ite]
  exact signs_not_crossing (by positivity) (by positivity) (by positivity) (h.le_of_le held)
    (h.ge_of_ge held) _ t

/-- **An integer that is rounded keeps its order beside a number of the format**, or becomes equal
to that number. -/
theorem compare_ofInt {i : Int} (reach : f.Reaches i.natAbs) (x : Floating f) :
    (ofInt i : Floating f).compare x = (Amount.exact i).compare x.amount ∨
      (ofInt i : Floating f).compare x = some .eq := by
  obtain ⟨m, e, near, rounded⟩ := exists_nearest_ofInt reach
  rw [compare_eq_amount, rounded]
  cases x with
  | nan => exact .inl rfl
  | infinite t => exact .inl rfl
  | finite t n d canonical =>
    obtain ⟨le, ge⟩ := near.not_crosses canonical.holds t
    exact (compare_eq_or_eq le ge).imp (congrArg some) (congrArg some)

/-- **What an integer is equal to in a finer format it is equal to in a coarser one** that has the
number. -/
theorem amount_ofInt_coarser {i : Int} (coarse : f.Coarser g) (reach_f : f.Reaches i.natAbs)
    (reach_g : g.Reaches i.natAbs) {x : Floating f}
    (same : (ofInt i : Floating g).amount = x.amount) :
    (ofInt i : Floating f).amount = x.amount := by
  obtain ⟨m, e, near_f, rounded_f⟩ := exists_nearest_ofInt reach_f
  obtain ⟨n, d, near_g, rounded_g⟩ := exists_nearest_ofInt reach_g
  rw [rounded_g] at same
  rw [rounded_f, ← same]
  cases x with
  | nan => cases same
  | infinite t => cases same
  | finite t k c canonical =>
    have magnitudes : (n : ℚ) * 2 ^ d = k * 2 ^ c := by
      rw [← abs_rational (decide (i < 0)), ← abs_rational t, Amount.exact.inj same]
    have rounded := near_f.coarser coarse near_g canonical.holds magnitudes
    rw [rational_eq_ite, rational_eq_ite, rounded, magnitudes]

/-- **An integer beside a number is ordered in a coarser format as in a finer one**, or is equal to
the number there. -/
theorem compare_ofInt_coarser {i : Int} (coarse : f.Coarser g) (reach_f : f.Reaches i.natAbs)
    (reach_g : g.Reaches i.natAbs) {x : Floating f} {y : Floating g} (moved : y.amount = x.amount) :
    (ofInt i : Floating g).compare y = (ofInt i : Floating f).compare x ∨
      (ofInt i : Floating f).compare x = some .eq := by
  rcases compare_ofInt reach_g y with kept_g | equal_g
  · rcases compare_ofInt reach_f x with kept_f | equal_f
    · left
      rw [kept_g, kept_f, moved]
    · exact .inr equal_f
  · right
    obtain ⟨same, -⟩ := equal_iff.mp (decide_eq_true equal_g)
    have same_f := amount_ofInt_coarser coarse reach_f reach_g (same.trans moved)
    rw [compare_eq_amount, same, moved, ← same_f, ← compare_eq_amount] at equal_g
    rw [compare_eq_amount, ← same_f, ← compare_eq_amount]
    exact equal_g

/-- Both formats have finite numbers beyond the wide integers. -/
theorem reaches_long (i : Int64) :
    FloatFormat.single.Reaches i.toInt.natAbs ∧ FloatFormat.double.Reaches i.toInt.natAbs := by
  have low := i.le_toInt
  have high := i.toInt_lt
  have magnitude : (i.toInt.natAbs : ℚ) ≤ 2 ^ (63 : Int) := by
    have : i.toInt.natAbs ≤ 2 ^ 63 := by omega
    exact_mod_cast this
  constructor
  · exact ⟨by decide, magnitude.trans_lt (zpow_lt_zpow_right₀ one_lt_two (by decide))⟩
  · exact ⟨by decide, magnitude.trans_lt (zpow_lt_zpow_right₀ one_lt_two (by decide))⟩

end Floating

end HostExpr
