import HostExpr.Proofs.Registry.Acceptance
import HostExpr.Proofs.Registry.Overloads
import Mathlib.Data.List.Nodup

/-!
Which overload a call chooses.

Of the visible overloads that fit the argument types, a resolver over a registry chooses the least:
by how well they fit, then by their position among the visible ones (`TypeRegistry.LeastFit`). An
overload with just the argument types for its parameters is therefore chosen wherever along the
lineage it is declared, and there is one at most, since no two visible overloads share a signature.
-/

namespace HostExpr

variable {c : TypeConverter}

/-! ### Fitting -/

/-- An argument may be passed for a parameter that has its type, or to whose type it converts. -/
def Fit.Passes (c : TypeConverter) (arg param : ValueType) : Prop :=
  arg = param ∨ c.canConvert arg param

/-- How a signature fits argument types. -/
inductive Fit.Fits (c : TypeConverter) : Signature → List ValueType → Fit → Prop where
  | exact {s : Signature} (fixedArity : s.rest = none) : Fits c s s.fixed .exact
  | convertible {s : Signature} {args : List ValueType} (fixedArity : s.rest = none)
      (each : List.Forall₂ (Passes c) args s.fixed) (different : args ≠ s.fixed) :
      Fits c s args .convertible
  | collected {s : Signature} {element : ValueType} {front : List ValueType} {arg : ValueType}
      (rest : s.rest = some element) (each : List.Forall₂ (Passes c) front s.fixed)
      (collects : c.isCollectedSequence arg (.list element)) : Fits c s (front ++ [arg]) .variadic
  | separate {s : Signature} {element : ValueType} {front tail : List ValueType}
      (rest : s.rest = some element) (each : List.Forall₂ (Passes c) front s.fixed)
      (others : ∀ arg ∈ tail, Passes c arg element) : Fits c s (front ++ tail) .variadic

namespace Fit

theorem accepts_iff {arg param : ValueType} : accepts c arg param ↔ Passes c arg param := by
  unfold accepts Passes
  rw [Bool.or_eq_true, decide_eq_true_eq]

theorem all_accepts_iff {args params : List ValueType} (count : args.length = params.length) :
    ((args.zip params).all fun p => accepts c p.1 p.2) ↔ List.Forall₂ (Passes c) args params := by
  rw [List.forall₂_iff_zip, List.all_eq_true]
  constructor
  · exact fun all => ⟨count, fun mem => accepts_iff.mp (all _ mem)⟩
  · exact fun ⟨_, each⟩ p mem => accepts_iff.mpr (each mem)

theorem all_same_iff {args params : List ValueType} (count : args.length = params.length) :
    ((args.zip params).all fun p => p.1 = p.2) ↔ args = params := by
  rw [← List.forall₂_eq_eq_eq, List.forall₂_iff_zip, List.all_eq_true]
  constructor
  · exact fun all => ⟨count, fun mem => of_decide_eq_true (all _ mem)⟩
  · exact fun ⟨_, each⟩ p mem => decide_eq_true (each mem)

theorem acceptsRest_iff {element : ValueType} {tail : List ValueType} :
    acceptsRest c element tail ↔
      (∃ arg, tail = [arg] ∧ c.isCollectedSequence arg (.list element)) ∨
        ∀ arg ∈ tail, Passes c arg element := by
  have separately : (tail.all fun arg => accepts c arg element) ↔
      ∀ arg ∈ tail, Passes c arg element := by
    simp only [List.all_eq_true, accepts_iff]
  unfold acceptsRest
  rw [Bool.or_eq_true, separately]
  refine or_congr ?_ Iff.rfl
  match tail with
  | [] => simp
  | [arg] => simp
  | _ :: _ :: _ => simp

/-- A signature of fixed arity fits as many arguments, each of which may be passed. -/
theorem of_fixed {s : Signature} (fixedArity : s.rest = none) {args : List ValueType} {fit : Fit} :
    of c s args = some fit ↔
      List.Forall₂ (Passes c) args s.fixed ∧
        (if args = s.fixed then exact else convertible) = fit := by
  have arity : s.accepts args.length ↔ args.length = s.fixed.length := by
    unfold Signature.accepts
    rw [Signature.isVariadic_of_fixed fixedArity]
    exact decide_eq_true_iff
  unfold of
  dsimp only
  rw [fixedArity]
  by_cases count : args.length = s.fixed.length
  · rw [arity.mpr count, Bool.true_and, ← all_accepts_iff count]
    simp only [all_same_iff count]
    split
    · next all => simp [all]
    · next notAll => simp [notAll]
  · have refused : s.accepts args.length = false := Bool.eq_false_iff.mpr (mt arity.mp count)
    have unequal : ¬List.Forall₂ (Passes c) args s.fixed := fun each => count each.length_eq
    simp [refused, unequal]

theorem of_eq_none {s : Signature} {args : List ValueType} (refused : ¬s.accepts args.length) :
    of c s args = none := by
  unfold of
  simp [refused]

/-- A variadic signature fits if its fixed parameters and its rest accept the arguments. -/
theorem of_variadic {s : Signature} {element : ValueType} (rest : s.rest = some element)
    {args : List ValueType} {fit : Fit} :
    of c s args = some fit ↔
      fit = variadic ∧ ∃ front tail, args = front ++ tail ∧
        List.Forall₂ (Passes c) front s.fixed ∧ acceptsRest c element tail := by
  constructor
  · intro fits
    have enough : s.required ≤ args.length := by
      unfold of at fits
      dsimp only at fits
      split at fits
      · next accepted =>
        have arity := ((Bool.and_eq_true ..).mp accepted).1
        unfold Signature.accepts at arity
        rw [Signature.isVariadic_of_rest rest] at arity
        exact of_decide_eq_true arity
      · cases fits
    have count : (args.take s.required).length = s.required := List.length_take_of_le enough
    rw [← List.take_append_drop s.required args, of_append rest count] at fits
    split at fits
    · next accepted =>
      obtain ⟨each, others⟩ := (Bool.and_eq_true ..).mp accepted
      cases fits
      exact ⟨rfl, _, _, (List.take_append_drop ..).symm, (all_accepts_iff count).mp each, others⟩
    · cases fits
  · rintro ⟨rfl, front, tail, rfl, each, others⟩
    rw [of_append rest each.length_eq, (all_accepts_iff each.length_eq).mpr each, others]
    rfl

/-- **A fit is computed exactly if there is one.** -/
theorem of_eq_some_iff {s : Signature} {args : List ValueType} {fit : Fit} :
    of c s args = some fit ↔ Fits c s args fit := by
  cases rest : s.rest with
  | none =>
    rw [of_fixed rest]
    constructor
    · rintro ⟨each, rfl⟩
      split
      · next same =>
        rw [same]
        exact .exact rest
      · next different => exact .convertible rest each different
    · rintro (_ | ⟨-, each, different⟩ | ⟨variadic, -, -⟩ | ⟨variadic, -, -⟩)
      · exact ⟨List.forall₂_same.mpr fun _ _ => .inl rfl, if_pos rfl⟩
      · exact ⟨each, if_neg different⟩
      · cases rest.symm.trans variadic
      · cases rest.symm.trans variadic
  | some element =>
    rw [of_variadic rest]
    constructor
    · rintro ⟨rfl, front, tail, rfl, each, others⟩
      rcases acceptsRest_iff.mp others with ⟨arg, rfl, collects⟩ | others
      · exact .collected rest each collects
      · exact .separate rest each others
    · rintro (fixedArity | ⟨fixedArity, -, -⟩ | ⟨rest', each, collects⟩ | ⟨rest', each, others⟩)
      · cases rest.symm.trans fixedArity
      · cases rest.symm.trans fixedArity
      · cases rest.symm.trans rest'
        exact ⟨rfl, _, _, rfl, each, acceptsRest_iff.mpr (.inl ⟨_, rfl, collects⟩)⟩
      · cases rest.symm.trans rest'
        exact ⟨rfl, _, _, rfl, each, acceptsRest_iff.mpr (.inr others)⟩

theorem Fits.unique {s : Signature} {args : List ValueType} {fit other : Fit}
    (fits : Fits c s args fit) (others : Fits c s args other) : fit = other :=
  Option.some.inj ((of_eq_some_iff.mpr fits).symm.trans (of_eq_some_iff.mpr others))

/-- Variadic signatures fit in the least of the ways, and no others do. -/
theorem Fits.isVariadic_iff {s : Signature} {args : List ValueType} {fit : Fit}
    (fits : Fits c s args fit) : s.isVariadic ↔ fit = .variadic := by
  unfold Signature.isVariadic
  cases fits <;> simp_all

end Fit

namespace TypeRegistry

open Fit

variable {σ : Type} {argTypes : List ValueType} {candidates : List (MethodDef σ)} {i : Nat}
  {fit : Fit} {m : MethodDef σ}

/-! ### The least fit -/

/-- A candidate that fits, such that every candidate that fits does so less well, or as well and
does not come earlier. -/
structure LeastFit (c : TypeConverter) (argTypes : List ValueType)
    (candidates : List (MethodDef σ)) (i : Nat) (fit : Fit) (m : MethodDef σ) : Prop where
  listed : candidates[i]? = some m
  fits : Fits c m.signature argTypes fit
  least : ∀ j n other, candidates[j]? = some n → Fits c n.signature argTypes other →
    fit.rank < other.rank ∨ fit.rank = other.rank ∧ i ≤ j

theorem LeastFit.unique {j : Nat} {other : Fit} {n : MethodDef σ}
    (first : LeastFit c argTypes candidates i fit m)
    (second : LeastFit c argTypes candidates j other n) : i = j ∧ m = n := by
  have same : i = j := by
    have forward := first.least j n other second.listed second.fits
    have backward := second.least i m fit first.listed first.fits
    omega
  subst same
  exact ⟨rfl, Option.some.inj (first.listed.symm.trans second.listed)⟩

/-- A first candidate is the least fit if none of the others fits better. -/
theorem LeastFit.here (fits : Fits c m.signature argTypes fit)
    (noneBetter : ∀ n ∈ candidates, ∀ other, Fits c n.signature argTypes other →
      fit.rank ≤ other.rank) : LeastFit c argTypes (m :: candidates) 0 fit m := by
  refine ⟨rfl, fits, fun j n other at_j others => ?_⟩
  cases j with
  | zero =>
    cases at_j
    rw [fits.unique others]
    exact .inr ⟨rfl, Nat.le_refl 0⟩
  | succ j =>
    have := noneBetter n (List.mem_of_getElem? at_j) other others
    omega

/-- A first candidate does not matter if it does not fit, or less well. -/
theorem LeastFit.later {first : MethodDef σ} (rest : LeastFit c argTypes candidates i fit m)
    (worse : ∀ other, Fits c first.signature argTypes other → fit.rank < other.rank) :
    LeastFit c argTypes (first :: candidates) (i + 1) fit m := by
  refine ⟨rest.listed, rest.fits, fun j n other at_j others => ?_⟩
  cases j with
  | zero =>
    cases at_j
    exact .inl (worse other others)
  | succ j =>
    have := rest.least j n other at_j others
    omega

theorem leastFit_of_best? (best : best? c argTypes candidates = some (fit, m)) :
    ∃ i, LeastFit c argTypes candidates i fit m := by
  induction candidates generalizing fit m with
  | nil => cases best
  | cons first rest ih =>
    rw [best?] at best
    cases here : Fit.of c first.signature argTypes with
    | none =>
      rw [here] at best
      obtain ⟨i, least⟩ := ih best
      refine ⟨i + 1, least.later fun other others => ?_⟩
      cases here.symm.trans (of_eq_some_iff.mpr others)
    | some own =>
      rw [here] at best
      have fits := of_eq_some_iff.mp here
      cases after : best? c argTypes rest with
      | none =>
        rw [after] at best
        cases best
        refine ⟨0, .here fits fun n mem other others => ?_⟩
        cases (best?_eq_none_iff.mp after n mem).symm.trans (of_eq_some_iff.mpr others)
      | some found =>
        obtain ⟨other, n⟩ := found
        obtain ⟨i, least⟩ := ih after
        simp only [after] at best
        split at best
        · next noWorse =>
          cases best
          refine ⟨0, .here fits fun n' mem fit' others => ?_⟩
          obtain ⟨j, at_j⟩ := List.mem_iff_getElem?.mp mem
          have := least.least j n' fit' at_j others
          omega
        · next worse =>
          cases best
          refine ⟨i + 1, least.later fun own' fits' => ?_⟩
          rw [← fits.unique fits']
          omega

/-- **The best candidate is the least fit.** -/
theorem best?_eq_some_iff :
    best? c argTypes candidates = some (fit, m) ↔ ∃ i, LeastFit c argTypes candidates i fit m := by
  constructor
  · exact leastFit_of_best?
  · rintro ⟨i, least⟩
    obtain ⟨⟨other, n⟩, best⟩ :=
      exists_best? (List.mem_of_getElem? least.listed) (of_eq_some_iff.mpr least.fits)
    obtain ⟨j, least'⟩ := leastFit_of_best? best
    obtain ⟨-, rfl⟩ := least.unique least'
    rw [best, least.fits.unique least'.fits]

/-! ### Selecting -/

variable {r : TypeRegistry σ} {typeName method : String}

theorem select_eq_some_iff :
    r.select c typeName method argTypes = .ok (some m) ↔
      ∃ i fit, LeastFit c argTypes (r.findMethods typeName method) i fit m := by
  rw [exists_comm]
  simp only [← best?_eq_some_iff]
  constructor
  · exact best?_of_select
  · rintro ⟨fit, best⟩
    unfold select
    dsimp only
    rw [best]

theorem exists_select_iff :
    (∃ m, r.select c typeName method argTypes = .ok (some m)) ↔
      ∃ m ∈ r.findMethods typeName method, ∃ fit, Fits c m.signature argTypes fit := by
  constructor
  · rintro ⟨m, selected⟩
    obtain ⟨i, fit, least⟩ := select_eq_some_iff.mp selected
    exact ⟨m, List.mem_of_getElem? least.listed, fit, least.fits⟩
  · rintro ⟨n, visible, fit, fits⟩
    obtain ⟨⟨other, m⟩, best⟩ := exists_best? visible (of_eq_some_iff.mpr fits)
    obtain ⟨i, least⟩ := best?_eq_some_iff.mp best
    exact ⟨m, select_eq_some_iff.mpr ⟨i, other, least⟩⟩

/-- An overload of fixed arity whose parameters are the argument types is selected. -/
theorem select_of_exact (visible : m ∈ r.findMethods typeName method)
    (exact : m.signature = { fixed := argTypes }) :
    r.select c typeName method argTypes = .ok (some m) := by
  obtain ⟨i, at_i⟩ := List.mem_iff_getElem?.mp visible
  have fits : Fits c m.signature argTypes .exact := by
    rw [exact]
    exact .exact rfl
  obtain ⟨n, selected⟩ := exists_select_iff.mpr ⟨m, visible, _, fits⟩
  obtain ⟨j, fit, least⟩ := select_eq_some_iff.mp selected
  -- Nothing fits better, so what is selected fits exactly too, and has the same signature.
  have fitsExactly : fit = .exact := by
    have := least.least i m .exact at_i fits
    cases fit with
    | exact => rfl
    | _ => simp [Fit.rank] at this
  have same : n.signature = m.signature := by
    have fits := least.fits
    rw [fitsExactly] at fits
    generalize n.signature = s at fits
    cases fits with
    | exact fixedArity => rw [exact, ← fixedArity]
  rw [selected, List.inj_on_of_nodup_map (r.nodup_signatures_findMethods typeName method)
    (List.mem_of_getElem? least.listed) visible same]

/-- At most one visible overload has a given signature. -/
theorem visible_unique {j : Nat} {n : MethodDef σ}
    (at_i : (r.findMethods typeName method)[i]? = some m)
    (at_j : (r.findMethods typeName method)[j]? = some n) (same : m.signature = n.signature) :
    i = j := by
  have distinct := r.nodup_signatures_findMethods typeName method
  have bound : i < ((r.findMethods typeName method).map (·.signature)).length := by
    rw [List.length_map]
    exact (List.getElem?_eq_some_iff.mp at_i).1
  refine (List.getElem?_inj bound distinct).mp ?_
  rw [List.getElem?_map, List.getElem?_map, at_i, at_j, Option.map_some, Option.map_some, same]

/-- A signature that is declared somewhere along the lineage is visible. -/
theorem Declares.exists_visible {e : Declaration σ} (declared : r.Declares typeName method e) :
    ∃ m ∈ r.findMethods typeName method, m.signature = e.overload.signature := by
  obtain ⟨shown, overloads, -, -, nearest⟩ := r.findMethods_lists_nearest typeName method
  obtain ⟨n, listed, same, -⟩ := nearest e declared
  refine ⟨n.overload, ?_, same⟩
  rw [← overloads]
  exact List.mem_map_of_mem listed

/-- If a variadic overload is selected, all that fit are variadic. -/
theorem isVariadic_of_select (selected : r.select c typeName method argTypes = .ok (some m))
    (variadic : m.signature.isVariadic) {n : MethodDef σ}
    (visible : n ∈ r.findMethods typeName method) (fits : Fits c n.signature argTypes fit) :
    n.signature.isVariadic := by
  obtain ⟨i, own, least⟩ := select_eq_some_iff.mp selected
  obtain ⟨j, at_j⟩ := List.mem_iff_getElem?.mp visible
  have noBetter := least.least j n fit at_j fits
  rw [least.fits.isVariadic_iff.mp variadic] at noBetter
  rw [fits.isVariadic_iff]
  cases fit with
  | variadic => rfl
  | _ => simp [Fit.rank] at noBetter

/-- A call fails if there are visible overloads and none of them takes so many arguments. -/
theorem select_eq_error_iff {failure : AccessError} :
    r.select c typeName method argTypes = .error failure ↔
      r.findMethods typeName method ≠ [] ∧
      (∀ m ∈ r.findMethods typeName method, ¬m.signature.accepts argTypes.length) ∧
      failure = arityFailure method (r.findMethods typeName method) argTypes.length := by
  unfold select
  dsimp only
  generalize r.findMethods typeName method = candidates
  constructor
  · intro failed
    split at failed
    · cases failed
    · split at failed
      · cases failed
      · next refused =>
        cases failed
        rw [Bool.or_eq_true, not_or, List.isEmpty_iff, List.any_eq_true] at refused
        exact ⟨refused.1, fun m mem accepted => refused.2 ⟨m, mem, accepted⟩, rfl⟩
  · rintro ⟨nonempty, refused, rfl⟩
    have noneFits : best? c argTypes candidates = none :=
      best?_eq_none_iff.mpr fun m mem => of_eq_none (refused m mem)
    have noneAccepts : ¬(candidates.isEmpty ||
        candidates.any fun m => m.signature.accepts argTypes.length) := by
      rw [Bool.or_eq_true, not_or, List.isEmpty_iff, List.any_eq_true]
      exact ⟨nonempty, fun ⟨m, mem, accepted⟩ => refused m mem accepted⟩
    rw [noneFits]
    exact if_neg noneAccepts

/-! ### Resolving -/

variable [Host σ]

/-- **A call chooses the least overload that fits.** What a resolver over a registry answers for a
target that is not `null`, without any change to the host, is as follows. It is the executor of the
least fit among the visible overloads, and there is one exactly if some visible overload fits. At
most one visible overload of fixed arity has just the argument types for its parameters. If there is
one, or if any type of the lineage declares one, it is the one with this signature that is chosen. A
variadic overload is chosen only if all that fit are variadic. The resolver fails exactly if there
are visible overloads and none of them takes so many arguments, and says so. -/
theorem resolve_chooses_least (r : TypeRegistry σ) (env : Environment σ) {target : Value}
    (notNull : target.isNull = false) (method : String) (argTypes : List ValueType) (world : σ) :
    let typeName := target.typeName (Host.view world)
    let visible := r.findMethods typeName method
    let c := env.converter
    ∃ answer, (r.methodResolver.resolve env target method argTypes).run.run world =
        (answer, world) ∧
      (∀ chosen, answer = .ok (some chosen) ↔
        ∃ i fit m, LeastFit c argTypes visible i fit m ∧ chosen = executor m) ∧
      ((∃ chosen, answer = .ok (some chosen)) ↔
        ∃ m ∈ visible, ∃ fit, Fits c m.signature argTypes fit) ∧
      (∀ (i j : Nat) (m n : MethodDef σ), visible[i]? = some m → visible[j]? = some n →
        m.signature = { fixed := argTypes } → n.signature = { fixed := argTypes } → i = j) ∧
      (∀ m ∈ visible, m.signature = { fixed := argTypes } → answer = .ok (some (executor m))) ∧
      (∀ e, r.Declares typeName method e → e.overload.signature = { fixed := argTypes } →
        ∃ m ∈ visible, m.signature = { fixed := argTypes } ∧ answer = .ok (some (executor m))) ∧
      (∀ chosen s, answer = .ok (some chosen) → chosen.signature = some s → s.isVariadic →
        ∀ m ∈ visible, ∀ fit, Fits c m.signature argTypes fit → m.signature.isVariadic) ∧
      ∀ failure, answer = .error failure ↔
        visible ≠ [] ∧ (∀ m ∈ visible, ¬m.signature.accepts argTypes.length) ∧
        failure = .arityMismatch method
          (" or ".intercalate (withoutRepeats (visible.map (·.signature.arityText))))
          argTypes.length := by
  intro typeName visible c
  -- What is selected decides the answer.
  have answers_iff : ∀ chosen, (r.select c typeName method argTypes).map (·.map executor) =
      .ok (some chosen) ↔
        ∃ m, r.select c typeName method argTypes = .ok (some m) ∧ chosen = executor m := by
    intro chosen
    cases r.select c typeName method argTypes with
    | error failure => simp [Except.map]
    | ok selected => cases selected <;> simp [Except.map, eq_comm]
  have fails_iff : ∀ failure, (r.select c typeName method argTypes).map (·.map executor) =
      .error failure ↔ r.select c typeName method argTypes = .error failure := by
    intro failure
    cases r.select c typeName method argTypes <;> simp [Except.map]
  have exactChosen : ∀ m ∈ visible, m.signature = { fixed := argTypes } →
      (r.select c typeName method argTypes).map (·.map executor) = .ok (some (executor m)) :=
    fun m mem exact => (answers_iff _).mpr ⟨m, select_of_exact mem exact, rfl⟩
  refine ⟨_, r.run_resolve env notNull method argTypes world, fun chosen => ?_, ?_,
    fun i j m n at_i at_j exact exact' => visible_unique at_i at_j (exact.trans exact'.symm),
    exactChosen, fun e declared exact => ?_, fun chosen s answered signature variadic => ?_,
    fun failure => (fails_iff failure).trans select_eq_error_iff⟩
  · rw [answers_iff]
    constructor
    · rintro ⟨m, selected, rfl⟩
      obtain ⟨i, fit, least⟩ := select_eq_some_iff.mp selected
      exact ⟨i, fit, m, least, rfl⟩
    · rintro ⟨i, fit, m, least, rfl⟩
      exact ⟨m, select_eq_some_iff.mpr ⟨i, fit, least⟩, rfl⟩
  · rw [← exists_select_iff]
    constructor
    · rintro ⟨chosen, answered⟩
      obtain ⟨m, selected, -⟩ := (answers_iff chosen).mp answered
      exact ⟨m, selected⟩
    · rintro ⟨m, selected⟩
      exact ⟨executor m, (answers_iff _).mpr ⟨m, selected, rfl⟩⟩
  · obtain ⟨m, mem, same⟩ := declared.exists_visible
    exact ⟨m, mem, same.trans exact, exactChosen m mem (same.trans exact)⟩
  · obtain ⟨m, selected, rfl⟩ := (answers_iff chosen).mp answered
    cases signature
    exact fun n mem fit fits => isVariadic_of_select selected variadic mem fits

/-- The overload for an integer is chosen though a nearer type declares one for a wider number
and one that collects integers. -/
theorem resolve_chooses_least_of_inherited :
    let put (text : String) (signature : Signature) : MethodDef Unit :=
      ⟨signature, fun _ _ _ => pure (.string text)⟩
    let long : MethodDef Unit := put "long" { fixed := [.long] }
    let int : MethodDef Unit := put "int" { fixed := [.int] }
    let ints : MethodDef Unit := put "ints" { fixed := [], rest := some .int }
    let sequence : TypeDescriptor Unit :=
      { name := "Sequence", methods := Table.empty.insert "put" [int] }
    let list : TypeDescriptor Unit :=
      { name := "List", parent := some "Sequence"
        methods := Table.empty.insert "put" [ints, long] }
    let registry := (({} : TypeRegistry Unit).register sequence).register list
    let env : Environment Unit :=
      { converter := ({} : StandardConverter).toConverter, reenter := fun _ => pure (.ok .null) }
    registry.findMethods "List" "put" = [ints, long, int] ∧
      (registry.methodResolver.resolve env (.list []) "put" [.int]).run.run () =
        (.ok (some (executor int)), ()) := by
  intro put long int ints sequence list registry env
  have visible : registry.findMethods "List" "put" = [ints, long, int] := rfl
  have mem : int ∈ registry.findMethods "List" "put" := by simp [visible]
  have notNull : (Value.list []).isNull = false := rfl
  obtain ⟨answer, resolved, -, -, -, exactChosen, -⟩ :=
    resolve_chooses_least registry env notNull "put" [.int] ()
  exact ⟨visible, by rw [resolved, exactChosen int mem rfl]⟩

end TypeRegistry

end HostExpr
