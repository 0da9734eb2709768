import HostExpr.Proofs.Conversion.Policies
import HostExpr.Proofs.Registry.Access
import HostExpr.Proofs.Session.Basic

/-!
On what the answers of a resolver over a registry depend.

Questions to it change nothing. Whether it reads or writes a property is settled by the name and the
type of the target. Whether it finds a method is settled by the types of the target and the
arguments and by the converter of the context; a converter that can convert less finds less
(`TypeRegistry.resolve_eq_none_of_within`).
-/

namespace HostExpr

/-! ### Members by type -/

theorem Value.isNull_eq (view : View) (v : Value) :
    v.isNull = decide (v.valueType view = .null) := by
  cases v with
  | object ref => cases at_ref : view ref <;> simp [isNull, valueType, at_ref]
  | _ => simp [isNull, valueType]

/-- The name under which the members of values of a type are registered. -/
def ValueType.membersName : ValueType → String
  | .list _ => listName
  | t => t.text

theorem Value.typeName_eq (view : View) (v : Value) :
    v.typeName view = (v.valueType view).membersName := by
  cases v with
  | object ref =>
    cases at_ref : view ref <;> simp [typeName, valueType, at_ref, ValueType.membersName]
  | _ => simp [typeName, valueType, ValueType.membersName]

/-! ### Converters that can convert less -/

/-- The converter can convert no types but those that the other one can. -/
def TypeConverter.Within (c wider : TypeConverter) : Prop :=
  ∀ s t, c.canConvert s t → wider.canConvert s t

namespace TypeConverter.Within

variable {c wider : TypeConverter} (within : c.Within wider)

include within

theorem accepts {arg param : ValueType} (h : Fit.accepts c arg param) :
    Fit.accepts wider arg param := by
  unfold Fit.accepts at h ⊢
  rcases (Bool.or_eq_true ..).mp h with same | able
  · rw [same, Bool.true_or]
  · rw [within arg param able, Bool.or_true]

theorem isCollectedSequence {arg sequence : ValueType} (h : c.isCollectedSequence arg sequence) :
    wider.isCollectedSequence arg sequence := by
  cases arg with
  | list element => exact within _ _ h
  | _ => exact h

theorem acceptsRest {element : ValueType} {tail : List ValueType}
    (h : Fit.acceptsRest c element tail) : Fit.acceptsRest wider element tail := by
  unfold Fit.acceptsRest at h ⊢
  rcases (Bool.or_eq_true ..).mp h with collected | each
  · split at collected
    · rw [within.isCollectedSequence collected, Bool.true_or]
    · cases collected
  · refine (Bool.or_eq_true ..).mpr (.inr (List.all_eq_true.mpr fun arg mem => ?_))
    exact within.accepts (List.all_eq_true.mp each arg mem)

/-- What fits under the one fits under the other. -/
theorem fit {s : Signature} {argTypes : List ValueType} (h : Fit.of wider s argTypes = none) :
    Fit.of c s argTypes = none := by
  by_contra fits
  unfold Fit.of at h fits
  dsimp only at h fits
  split at fits
  · next accepted =>
    obtain ⟨arity, pairs⟩ := (Bool.and_eq_true ..).mp accepted
    have pairs' : (argTypes.zip s.fixed).all fun p => Fit.accepts wider p.1 p.2 :=
      List.all_eq_true.mpr fun p mem => within.accepts (List.all_eq_true.mp pairs p mem)
    rw [arity, pairs'] at h
    cases rest : s.rest with
    | none => simp [rest] at h
    | some element =>
      simp only [rest] at h fits
      split at fits
      · next restAccepted => simp [within.acceptsRest restAccepted] at h
      · exact fits rfl
  · exact fits rfl

end TypeConverter.Within

/-- A standard converter that never narrows can convert the least. -/
theorem StandardConverter.never_within (narrowing : Narrowing) (hierarchy : Option Hierarchy) :
    (toConverter { narrowing := .never, hierarchy }).Within
      (toConverter { narrowing, hierarchy }) := by
  intro s t able
  exact canConvert_of_narrows able (fun narrows => absurd rfl narrows) rfl

namespace TypeRegistry

variable {σ : Type}

/-- Where nothing is selected, a converter that can convert less selects nothing. -/
theorem select_eq_none_of_within {c wider : TypeConverter} (within : c.Within wider)
    (r : TypeRegistry σ) {typeName method : String} {argTypes : List ValueType}
    (h : r.select wider typeName method argTypes = .ok none) :
    r.select c typeName method argTypes = .ok none := by
  unfold select at h ⊢
  dsimp only at h ⊢
  cases best : best? wider argTypes (r.findMethods typeName method) with
  | some found =>
    rw [best] at h
    cases h
  | none =>
    have none_fits : best? c argTypes (r.findMethods typeName method) = none :=
      best?_eq_none_iff.mpr fun m mem => within.fit (best?_eq_none_iff.mp best m mem)
    rw [best] at h
    rw [none_fits]
    exact h

/-! ### Questions -/

def propertyAt? (r : TypeRegistry σ) (type : ValueType) (name : String) : Option (PropertyDef σ) :=
  if type = .null then none else r.findProperty type.membersName name

def selectAt (r : TypeRegistry σ) (c : TypeConverter) (type : ValueType) (method : String)
    (argTypes : List ValueType) : Except AccessError (Option (MethodDef σ)) :=
  if type = .null then .ok none else r.select c type.membersName method argTypes

variable [Host σ]

/-- The property of a target is that of its type, and looking for it changes nothing. -/
theorem run_propertyOf? (r : TypeRegistry σ) (target : Value) (name : String) (world : σ) :
    (r.propertyOf? target name).run.run world =
      (.ok (r.propertyAt? (target.valueType (Host.view world)) name), world) := by
  have by_null : (r.propertyOf? target name).run.run world =
      (.ok (if target.isNull then none
        else r.findProperty (target.typeName (Host.view world)) name), world) := by
    unfold propertyOf?
    cases target.isNull <;> rfl
  rw [by_null, target.isNull_eq (Host.view world), target.typeName_eq]
  simp only [decide_eq_true_eq, propertyAt?]

theorem run_canRead (r : TypeRegistry σ) (env : Environment σ) (target : Value) (name : String)
    (world : σ) :
    (r.propertyResolver.canRead env target name).run.run world =
      (.ok (r.propertyAt? (target.valueType (Host.view world)) name).isSome, world) := by
  show (r.propertyOf? target name >>= fun p => pure p.isSome).run.run world = _
  rw [HostM.run_bind, run_propertyOf?]
  rfl

theorem run_canWrite (r : TypeRegistry σ) (env : Environment σ) (target : Value) (name : String)
    (world : σ) :
    (r.propertyResolver.canWrite env target name).run.run world =
      (.ok ((r.propertyAt? (target.valueType (Host.view world)) name).bind (·.set)).isSome,
        world) := by
  show (r.propertyOf? target name >>= fun p => pure (p.bind (·.set)).isSome).run.run world = _
  rw [HostM.run_bind, run_propertyOf?]
  rfl

/-- The method of a target is one of its type, and looking for it changes nothing. -/
theorem run_resolve_at (r : TypeRegistry σ) (env : Environment σ) (target : Value)
    (method : String) (argTypes : List ValueType) (world : σ) :
    (r.methodResolver.resolve env target method argTypes).run.run world =
      ((r.selectAt env.converter (target.valueType (Host.view world)) method argTypes).map
        fun selected => selected.map executor, world) := by
  by_cases null : target.valueType (Host.view world) = .null
  · have isNull : target.isNull := by
      rw [target.isNull_eq (Host.view world), null]
      rfl
    rw [selectAt, if_pos null]
    unfold methodResolver
    simp only [isNull, if_true]
    rfl
  · have notNull : target.isNull = false := by
      rw [target.isNull_eq (Host.view world)]
      exact decide_eq_false null
    rw [selectAt, if_neg null, r.run_resolve env notNull, target.typeName_eq]

section Asked

variable (reenter : Context σ → Reenter σ)

/-- Questions for properties of a registry change nothing. -/
theorem propertyResolver_quiet (r : TypeRegistry σ) : r.propertyResolver.Quiet reenter where
  canRead ctx target name world := by rw [run_canRead]
  canWrite ctx target name world := by rw [run_canWrite]

/-- Which properties of a registry are read and written is settled by the type of the target. -/
theorem propertyResolver_byShape (r : TypeRegistry σ) : r.propertyResolver.ByShape reenter where
  canRead := by
    refine ⟨fun name type => some (r.propertyAt? type name).isSome, fun ctx target name world => ?_⟩
    rw [run_canRead]
    rfl
  canWrite := by
    refine ⟨fun name type => some ((r.propertyAt? type name).bind (·.set)).isSome,
      fun ctx target name world => ?_⟩
    rw [run_canWrite]
    rfl

/-- Questions for methods of a registry change nothing. -/
theorem methodResolver_quiet (r : TypeRegistry σ) : r.methodResolver.Quiet reenter where
  resolve ctx target name argTypes world := by rw [run_resolve_at]

end Asked

/-- **Where no method is found, a converter that can convert less finds none**, whatever the target
of that type. -/
theorem resolve_eq_none_of_within (r : TypeRegistry σ) {env env' : Environment σ}
    (within : env'.converter.Within env.converter) {target target' : Value} {method : String}
    {argTypes : List ValueType} {world world' : σ}
    (same : target'.valueType (Host.view world') = target.valueType (Host.view world))
    (h : ((r.methodResolver.resolve env target method argTypes).run.run world).1 = .ok none) :
    ((r.methodResolver.resolve env' target' method argTypes).run.run world').1 = .ok none := by
  rw [run_resolve_at] at h ⊢
  rw [same]
  by_cases null : target.valueType (Host.view world) = .null
  · rw [selectAt, if_pos null]
    rfl
  · rw [selectAt, if_neg null] at h ⊢
    have nothing : r.select env.converter (target.valueType (Host.view world)).membersName method
        argTypes = .ok none := by
      cases selected : r.select env.converter (target.valueType (Host.view world)).membersName
          method argTypes with
      | error e => simp [selected, Except.map] at h
      | ok found =>
        cases found with
        | none => rfl
        | some m => simp [selected, Except.map] at h
    rw [select_eq_none_of_within within r nothing]
    rfl

end TypeRegistry

end HostExpr
