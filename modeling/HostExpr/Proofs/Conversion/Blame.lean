import HostExpr.Proofs.Conversion.Conforms

/-!
What the types of values promise of their conversion.

If a converter can convert the type of a value, it converts the value, or else a scalar in it is to
blame: a text that cannot be read, or a number that the policy keeps from losing something
(`convert_of_canConvert`). That two kinds cannot be converted is never the reason, so what is said
of types suffices to choose among overloads.
-/

namespace HostExpr

/-! ### Outcomes with an excuse -/

section Outcomes

variable {α β : Type} {excuse : Mismatch → Prop} {outcome : Except EvalError α}

/-- The outcome is a value, unless there is a mismatch with an excuse. -/
def SucceedsUnless (excuse : Mismatch → Prop) (outcome : Except EvalError α) : Prop :=
  (∃ a, outcome = .ok a) ∨ ∃ mismatch, outcome = .error (.typeMismatch mismatch) ∧ excuse mismatch

namespace SucceedsUnless

theorem ok (a : α) : SucceedsUnless excuse (.ok a) :=
  .inl ⟨a, rfl⟩

theorem mono (h : SucceedsUnless excuse outcome) {weaker : Mismatch → Prop}
    (sub : ∀ mismatch, excuse mismatch → weaker mismatch) : SucceedsUnless weaker outcome := by
  rcases h with success | ⟨mismatch, failed, excused⟩
  · exact .inl success
  · exact .inr ⟨mismatch, failed, sub mismatch excused⟩

theorem map (h : SucceedsUnless excuse outcome) (f : α → β) :
    SucceedsUnless excuse (outcome.map f) := by
  rcases h with ⟨a, rfl⟩ | ⟨mismatch, rfl, excused⟩
  · exact .ok (f a)
  · exact .inr ⟨mismatch, rfl, excused⟩

theorem bind {f : α → Except EvalError β} (h : SucceedsUnless excuse outcome)
    (next : ∀ a, SucceedsUnless excuse (f a)) : SucceedsUnless excuse (outcome >>= f) := by
  rcases h with ⟨a, rfl⟩ | ⟨mismatch, rfl, excused⟩
  · exact next a
  · exact .inr ⟨mismatch, rfl, excused⟩

/-- A series succeeds unless one of its steps has an excuse. -/
theorem mapM {f : α → Except EvalError β} {excuse : α → Mismatch → Prop} {l : List α}
    (each : ∀ a ∈ l, SucceedsUnless (excuse a) (f a)) :
    SucceedsUnless (fun mismatch => ∃ a ∈ l, excuse a mismatch) (l.mapM f) := by
  cases ran : l.mapM f with
  | ok results => exact .ok results
  | error e =>
    obtain ⟨a, mem, failed⟩ := exists_of_mapM_eq_error ran
    rcases each a mem with ⟨b, succeeded⟩ | ⟨mismatch, failed', excused⟩
    · rw [failed] at succeeded
      cases succeeded
    · rw [failed] at failed'
      cases failed'
      exact .inr ⟨mismatch, rfl, a, mem, excused⟩

end SucceedsUnless

end Outcomes

/-! ### Who is to blame -/

/-- Where a value is required to be of a type, a value in it, at any depth of lists, is required to
be of another. -/
inductive Value.Demands : Value → ValueType → Value → ValueType → Prop where
  | here {v : Value} {t : ValueType} : v.Demands t v t
  | element {items : List Value} {v leaf : Value} {t u : ValueType} (mem : v ∈ items)
      (inner : v.Demands t leaf u) : (Value.list items).Demands (.list t) leaf u

namespace StandardConverter

/-- A scalar in a value is the reason for a mismatch: a text that cannot be read as the primitive
type that it has to be, or, if nothing may be lost, a number that would not survive the move to a
narrower kind. -/
inductive Blames (c : StandardConverter) (v : Value) (t : ValueType) : Mismatch → Prop where
  | unreadable {s : String} {u : ValueType} (leaf : v.Demands t (.string s) u)
      (primitive : u.isPrimitive) (unread : ∀ w, readText s u ≠ .ok w) :
      c.Blames v t (.unreadable s u)
  | lossy {n : Number} {k : NumericKind} (leaf : v.Demands t (.number n) (.number k))
      (policy : c.narrowing = .lossless) (narrower : k.rank < n.kind.rank)
      (lost : survives n (n.cast k) = false) : c.Blames v t (.lossy n (.number k))

variable {c : StandardConverter} {view : View}

/-- A scalar in an element is one in the list. -/
theorem Blames.element {items : List Value} {v : Value} (mem : v ∈ items) {t : ValueType}
    {mismatch : Mismatch} (h : c.Blames v t mismatch) :
    c.Blames (.list items) (.list t) mismatch := by
  cases h with
  | unreadable leaf primitive unread => exact .unreadable (.element mem leaf) primitive unread
  | lossy leaf policy narrower lost => exact .lossy (.element mem leaf) policy narrower lost

/-- Nothing is known of a type `any`, so it stands for no other. -/
theorem eq_any_of_canConvert_any {t : ValueType} (h : c.canConvert .any t) : t = .any := by
  cases t <;> simp_all [canConvert, ValueType.isPrimitive, ValueType.isNumeric, ValueType.kind?]

/-- What the type of a list can become, the types of its elements can. -/
theorem canConvert_elements {items : List Value} {t : ValueType}
    (able : c.canConvert (Value.commonType (items.map (Value.valueType view))) t) :
    ∀ v ∈ items, c.canConvert (v.valueType view) t := by
  intro v mem
  by_cases h : Value.commonType (items.map (Value.valueType view)) = .any
  · rw [h] at able
    rw [eq_any_of_canConvert_any able]
    unfold canConvert
    simp
  · rw [Value.eq_of_mem_of_commonType_ne_any (List.mem_map_of_mem mem) h]
    exact able

/-- A text is read, or it is to blame. -/
theorem readText_succeedsUnless {s : String} {t : ValueType} (primitive : t.isPrimitive) :
    SucceedsUnless (c.Blames (.string s) t) (readText s t) := by
  cases read : readText s t with
  | ok w => exact .ok w
  | error e =>
    have unread : ∀ w, readText s t ≠ .ok w := by
      intro w same
      rw [read] at same
      cases same
    have failure : e = .typeMismatch (.unreadable s t) := by
      unfold readText at read
      dsimp only at read
      split at read
      · cases read
      · exact (Except.error.inj read).symm
    exact .inr ⟨_, by rw [failure], .unreadable .here primitive unread⟩

/-- A number is moved to a kind, or it is to blame. -/
theorem convertNumber_succeedsUnless {n : Number} {k : NumericKind}
    (able : n.kind.rank ≤ k.rank ∨ c.narrowing ≠ .never) :
    SucceedsUnless (c.Blames (.number n) (.number k)) (c.convertNumber n k) := by
  unfold convertNumber
  dsimp only
  split
  · exact .ok _
  · next narrower =>
    cases policy : c.narrowing with
    | never =>
      rcases able with wider | allowed
      · exact absurd wider narrower
      · exact absurd policy allowed
    | truncating => exact .ok _
    | lossless =>
      dsimp only
      split
      · exact .ok _
      · next lost =>
        have lossy : c.Blames (.number n) (.number k) (.lossy n (.number k)) :=
          .lossy .here policy (Nat.lt_of_not_le narrower) (Bool.eq_false_iff.mpr lost)
        exact .inr ⟨_, rfl, lossy⟩

/-- A value whose type can be converted is converted, unless it is to blame, if the elements of a
list are. -/
theorem convert_of_canConvert_of_elements {v : Value} {t : ValueType}
    (elements : ∀ items, v = .list items → ∀ u ∈ items, ∀ {e},
      c.canConvert (u.valueType view) e → SucceedsUnless (c.Blames u e) (c.convert view u e))
    (able : c.canConvert (v.valueType view) t) :
    SucceedsUnless (c.Blames v t) (c.convert view v t) := by
  by_cases trivial : t = .any ∨ v.valueType view = t
  · rw [convert_of_trivial trivial]
    exact .ok v
  · obtain ⟨notAny, unlike⟩ := not_or.mp trivial
    have known := able
    unfold convert
    rw [if_neg trivial]
    unfold canConvert at able
    rw [decide_eq_false notAny, decide_eq_false unlike, Bool.false_or, Bool.false_or] at able
    cases v with
    | null =>
      have reference : t.isPrimitive = false := by simpa [Value.valueType] using able
      simp only [reference]
      exact .ok _
    | boolean b =>
      cases t with
      | string => exact .ok _
      | _ => simp [Value.valueType] at able
    | number n =>
      cases t with
      | number k =>
        exact convertNumber_succeedsUnless (by simpa [Value.valueType] using able)
      | string => exact .ok _
      | _ => simp [Value.valueType] at able
    | string s =>
      have primitive : t.isPrimitive := by
        cases t <;> simp_all [Value.valueType, ValueType.isPrimitive]
      simp only [primitive]
      exact readText_succeedsUnless primitive
    | list items =>
      cases t with
      | list element =>
        have each := canConvert_elements (by simpa [Value.valueType] using able)
        dsimp only
        rw [convertAll_eq_mapM]
        have series := SucceedsUnless.mapM fun u mem => elements items rfl u mem (each u mem)
        refine (series.mono ?_).map _
        rintro mismatch ⟨u, mem, blamed⟩
        exact blamed.element mem
      | _ =>
        simp [Value.valueType, ValueType.isPrimitive, ValueType.isNumeric, ValueType.kind?] at able
    | object ref =>
      cases facts : view ref with
      | none =>
        rw [Value.valueType, facts] at known
        exact absurd (eq_any_of_canConvert_any known) notAny
      | some o =>
        cases t with
        | object name =>
          have accepted : (view ref).any fun o => c.accepts o name := by
            have subtype : c.isSubtype o.typeName name := by
              simpa [Value.valueType, facts] using able
            rw [facts]
            simp [accepts, subtype]
          simp only [accepted]
          exact .ok _
        | _ =>
          simp [Value.valueType, facts, ValueType.isPrimitive, ValueType.isNumeric,
            ValueType.kind?] at able

/-- **If the type of a value can be converted, so is the value**, unless a scalar in it is to
blame. -/
theorem convert_of_canConvert {v : Value} {t : ValueType}
    (able : c.canConvert (v.valueType view) t) :
    SucceedsUnless (c.Blames v t) (c.convert view v t) := by
  induction v generalizing t with
  | list items ih =>
    refine convert_of_canConvert_of_elements (fun items' same u mem => ?_) able
    cases same
    exact ih u mem
  | _ => exact convert_of_canConvert_of_elements (fun _ same => by cases same) able

end StandardConverter

end HostExpr
