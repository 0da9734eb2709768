import HostExpr.Proofs.Conversion.Blame

/-!
What the types of values do not tell of their conversion.

A converter is asked about types before it gets to see values. The type of a value may say too
little for it: a list of unlike elements has elements of type `any`, and what an object says that it
is an instance of is no part of its type. `StandardConverter.Conceals` collects these cases. A value
that is converted has a type that can be converted exactly if nothing is concealed
(`canConvert_of_convert`, `canConvert_eq_false_of_conceals`). A value that conforms to a type
already is left as it is (`convert_of_conforms`).
-/

namespace HostExpr.StandardConverter

variable {c : StandardConverter} {view : View}

/-- Every type stands for itself. -/
theorem isSubtype_self (c : StandardConverter) (name : String) : c.isSubtype name name := by
  simp [isSubtype]

/-- What needs no conversion can be converted. -/
theorem canConvert_of_trivial {s t : ValueType} (h : t = .any ∨ s = t) : c.canConvert s t := by
  unfold canConvert
  rcases h with rfl | rfl <;> simp

/-- Lists can be converted if their elements can. -/
theorem canConvert_list {s t : ValueType} :
    c.canConvert (.list s) (.list t) = c.canConvert s t := by
  by_cases same : s = t
  · rw [canConvert_of_trivial (.inr same), canConvert_of_trivial (.inr (congrArg _ same))]
  · rw [canConvert]
    simp [same]

/-- Objects can be converted if the one type stands for the other. -/
theorem canConvert_object {sub sup : String} :
    c.canConvert (.object sub) (.object sup) = c.isSubtype sub sup := by
  by_cases same : sub = sup
  · rw [canConvert_of_trivial (.inr (congrArg _ same)), same, isSubtype_self]
  · rw [canConvert]
    simp [same]

/-- A list becomes nothing but a list. -/
theorem canConvert_list_eq_false {s t : ValueType} (notAny : t ≠ .any)
    (notList : t.element? = none) : c.canConvert (.list s) t = false := by
  unfold canConvert
  cases t <;> simp_all [ValueType.element?, ValueType.isPrimitive, ValueType.isNumeric,
    ValueType.kind?]

/-! ### Concealment -/

/-- The type of a value does not show that the value may become one of a type: somewhere in it the
elements of a list share no type, but elements of some type are asked for, or an object is an
instance of a type which it only says so itself. -/
inductive Conceals (c : StandardConverter) (view : View) : Value → ValueType → Prop where
  | unlike {items : List Value} {element : ValueType}
      (unlike : Value.commonType (items.map (Value.valueType view)) = .any)
      (asked : element ≠ .any) : c.Conceals view (.list items) (.list element)
  | element {items : List Value} {v : Value} {element : ValueType} (mem : v ∈ items)
      (inner : c.Conceals view v element) : c.Conceals view (.list items) (.list element)
  | object {ref : ObjectRef} {o : ObjectFacts} {name : String} (facts : view ref = some o)
      (declared : o.isInstanceOf name) (unrelated : c.isSubtype o.typeName name = false) :
      c.Conceals view (.object ref) (.object name)

/-- Nothing is concealed where any value will do. -/
theorem Conceals.ne_any {v : Value} {t : ValueType} (h : c.Conceals view v t) : t ≠ .any := by
  cases h <;> simp

/-- **A type that conceals a conversion cannot be converted.** -/
theorem canConvert_eq_false_of_conceals {v : Value} {t : ValueType} (h : c.Conceals view v t) :
    c.canConvert (v.valueType view) t = false := by
  have any_eq_false : ∀ {t : ValueType}, t ≠ .any → c.canConvert .any t = false := fun notAny =>
    Bool.eq_false_iff.mpr fun able => notAny (eq_any_of_canConvert_any able)
  induction h with
  | unlike unlike asked =>
    rw [Value.valueType, Value.valueTypes_eq_map, canConvert_list, unlike]
    exact any_eq_false asked
  | @element items v element mem inner ih =>
    rw [Value.valueType, Value.valueTypes_eq_map, canConvert_list]
    by_cases unlike : Value.commonType (items.map (Value.valueType view)) = .any
    · rw [unlike]
      exact any_eq_false inner.ne_any
    · rw [← Value.eq_of_mem_of_commonType_ne_any (List.mem_map_of_mem mem) unlike]
      exact ih
  | @object ref o name facts declared unrelated =>
    rw [Value.valueType, facts]
    exact canConvert_object.trans unrelated

/-- A number that is moved to a kind goes up the order of kinds, or the policy lets it go down. -/
theorem canConvert_of_convertNumber {n : Number} {k : NumericKind} {w : Value}
    (converted : c.convertNumber n k = .ok w) : c.canConvert (.number n.kind) (.number k) := by
  unfold canConvert
  unfold convertNumber at converted
  dsimp only at converted
  split at converted
  · next wider => simp [wider]
  · cases policy : c.narrowing with
    | never => simp [policy] at converted
    | _ => simp

/-- A list of which each element has a type that can be converted, unless that is concealed, has one
itself, unless the type of the list conceals it. -/
theorem canConvert_of_elements {items : List Value} {element : ValueType}
    (trivial : (Value.list items).valueType view ≠ .list element)
    (elements : ∀ u ∈ items, ¬c.Conceals view u element →
      c.canConvert (u.valueType view) element)
    (shown : ¬c.Conceals view (.list items) (.list element)) :
    c.canConvert ((Value.list items).valueType view) (.list element) := by
  rw [Value.valueType, Value.valueTypes_eq_map] at trivial ⊢
  have alike : Value.commonType (items.map (Value.valueType view)) ≠ .any := by
    intro unlike
    by_cases asked : element = .any
    · exact trivial (by rw [unlike, asked])
    · exact shown (.unlike unlike asked)
  -- Elements that share a type exist, and one of them speaks for all.
  obtain ⟨u, mem⟩ : ∃ u, u ∈ items := by
    cases items with
    | nil => exact absurd rfl alike
    | cons u rest => exact ⟨u, List.mem_cons_self⟩
  rw [canConvert_list, ← Value.eq_of_mem_of_commonType_ne_any (List.mem_map_of_mem mem) alike]
  exact elements u mem fun inner => shown (.element mem inner)

/-- An object that suits a type has one that can be converted, unless only the object says so. -/
theorem canConvert_of_suits {ref : ObjectRef} {o : ObjectFacts} {name : String}
    (facts : view ref = some o) (suits : o.isInstanceOf name || c.isSubtype o.typeName name)
    (shown : ¬c.Conceals view (.object ref) (.object name)) :
    c.canConvert ((Value.object ref).valueType view) (.object name) := by
  rw [Value.valueType, facts]
  refine canConvert_object.trans ?_
  rcases (Bool.or_eq_true ..).mp suits with declared | subtype
  · exact eq_true_of_ne_false fun unrelated => shown (.object facts declared unrelated)
  · exact subtype

/-- A value that is converted has a type that can be converted, unless that is concealed, if the
elements of a list do. -/
theorem canConvert_of_convert_of_elements {v w : Value} {t : ValueType}
    (elements : ∀ items, v = .list items → ∀ u ∈ items, ∀ {e x}, c.convert view u e = .ok x →
      ¬c.Conceals view u e → c.canConvert (u.valueType view) e)
    (converted : c.convert view v t = .ok w) (shown : ¬c.Conceals view v t) :
    c.canConvert (v.valueType view) t := by
  by_cases trivial : t = .any ∨ v.valueType view = t
  · exact canConvert_of_trivial trivial
  · unfold convert at converted
    rw [if_neg trivial] at converted
    cases v with
    | null =>
      dsimp only at converted
      split at converted
      · cases converted
      · next reference => simp [Value.valueType, canConvert, reference]
    | boolean b =>
      cases t with
      | string => rfl
      | _ => cases converted
    | number n =>
      cases t with
      | number k => exact canConvert_of_convertNumber converted
      | string => simp [Value.valueType, canConvert, ValueType.isPrimitive, ValueType.isNumeric,
          ValueType.kind?]
      | _ => cases converted
    | string s =>
      dsimp only at converted
      split at converted
      · next primitive =>
        cases t <;> simp_all [Value.valueType, canConvert, ValueType.isPrimitive,
          ValueType.isNumeric, ValueType.kind?]
      · cases converted
    | list items =>
      cases t with
      | list element =>
        refine canConvert_of_elements (fun same => trivial (.inr same)) (fun u mem => ?_) shown
        dsimp only at converted
        rw [convertAll_eq_mapM] at converted
        cases each : items.mapM fun v => c.convert view v element with
        | error e => simp [each, Except.map] at converted
        | ok ws =>
          obtain ⟨x, becomes⟩ := exists_of_mapM_eq_ok each mem
          exact elements items rfl u mem becomes
      | _ => cases converted
    | object ref =>
      cases t with
      | object name =>
        dsimp only at converted
        split at converted
        · next accepted =>
          obtain ⟨o, facts, suits⟩ := (Option.any_eq_true ..).mp accepted
          exact canConvert_of_suits facts suits shown
        · cases converted
      | _ => cases converted

/-- **A value that is converted has a type that can be converted**, unless the type conceals it. -/
theorem canConvert_of_convert {v w : Value} {t : ValueType}
    (converted : c.convert view v t = .ok w) (shown : ¬c.Conceals view v t) :
    c.canConvert (v.valueType view) t := by
  induction v generalizing t w with
  | list items ih =>
    refine canConvert_of_convert_of_elements (fun items' same u mem => ?_) converted shown
    cases same
    exact ih u mem
  | _ => exact canConvert_of_convert_of_elements (fun _ same => by cases same) converted shown

/-! ### Values that conform -/

/-- **A value that conforms to a type is left as it is.** -/
theorem convert_of_conforms {v : Value} {t : ValueType} (h : c.Conforms view v t) :
    c.convert view v t = .ok v := by
  by_cases trivial : t = .any ∨ v.valueType view = t
  · exact convert_of_trivial trivial
  · induction h with
    | any => exact absurd (.inl rfl) trivial
    | null reference =>
      unfold convert
      rw [if_neg trivial]
      simp [reference]
    | boolean => exact absurd (.inr rfl) trivial
    | number kind => exact absurd (.inr (congrArg _ kind)) trivial
    | string => exact absurd (.inr rfl) trivial
    | @list items element each ih =>
      have unchanged : ∀ v ∈ items, c.convert view v element = .ok v := by
        intro v mem
        by_cases trivial : element = .any ∨ v.valueType view = element
        · exact convert_of_trivial trivial
        · exact ih v mem trivial
      unfold convert
      rw [if_neg trivial]
      dsimp only
      rw [convertAll_eq_mapM, mapM_eq_ok_self unchanged]
      rfl
    | @object ref o name facts suits =>
      unfold convert
      rw [if_neg trivial]
      dsimp only
      rw [facts, if_pos]
      exact accepts_iff.mpr suits

end HostExpr.StandardConverter
