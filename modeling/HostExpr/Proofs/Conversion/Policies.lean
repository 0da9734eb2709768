import HostExpr.Proofs.Conversion.Conceals

/-!
What a policy for narrowing decides.

A policy is asked where a number would move down the order of kinds, at any depth of lists, and
nowhere else. It lets the number move or does not, and has no say in what the number becomes. So of
two converters with the same types registered the laxer one converts all that the stricter one
converts, and to the same values (`convert_of_laxer`). Types show of a policy only whether it
narrows at all (`canConvert_of_narrows`).
-/

namespace HostExpr

def Narrowing.laxity : Narrowing → Nat
  | .never => 0
  | .lossless => 1
  | .truncating => 2

namespace StandardConverter

variable {strict lax : StandardConverter} {view : View}

section Converting

variable (laxer : strict.narrowing.laxity ≤ lax.narrowing.laxity)

include laxer

/-- A number that is moved under a policy is moved to the same number under a laxer one. -/
theorem convertNumber_of_laxer {n : Number} {k : NumericKind} {w : Value}
    (converted : strict.convertNumber n k = .ok w) : lax.convertNumber n k = .ok w := by
  unfold convertNumber at converted ⊢
  dsimp only at converted ⊢
  split at converted
  · next wider => rw [if_pos wider, converted]
  · next narrower =>
    rw [if_neg narrower]
    cases strictly : strict.narrowing with
    | never => simp [strictly] at converted
    | lossless =>
      rw [strictly] at converted laxer
      dsimp only at converted
      cases laxly : lax.narrowing with
      | never => simp [laxly, Narrowing.laxity] at laxer
      | lossless => exact converted
      | truncating =>
        split at converted
        · exact converted
        · cases converted
    | truncating =>
      rw [strictly] at converted laxer
      cases laxly : lax.narrowing with
      | truncating => exact converted
      | _ => simp [laxly, Narrowing.laxity] at laxer

variable (registered : strict.hierarchy = lax.hierarchy)

include registered

/-- A value that is converted under a policy is converted to the same value under a laxer one, if
the elements of a list are. -/
theorem convert_of_laxer_of_elements {v w : Value} {t : ValueType}
    (elements : ∀ items, v = .list items → ∀ u ∈ items, ∀ {e x},
      strict.convert view u e = .ok x → lax.convert view u e = .ok x)
    (converted : strict.convert view v t = .ok w) : lax.convert view v t = .ok w := by
  by_cases trivial : t = .any ∨ v.valueType view = t
  · rw [convert_of_trivial trivial] at converted ⊢
    exact converted
  · unfold convert at converted ⊢
    rw [if_neg trivial] at converted ⊢
    cases v with
    | boolean b => cases t <;> exact converted
    | number n =>
      cases t with
      | number k => exact convertNumber_of_laxer laxer converted
      | _ => exact converted
    | list items =>
      cases t with
      | list element =>
        dsimp only at converted ⊢
        rw [convertAll_eq_mapM] at converted ⊢
        cases each : items.mapM fun v => strict.convert view v element with
        | error e => simp [each, Except.map] at converted
        | ok ws =>
          have same : items.mapM (fun v => lax.convert view v element) = .ok ws :=
            mapM_eq_ok_of_imp (fun u mem x => elements items rfl u mem) each
          rw [each] at converted
          rw [same]
          exact converted
      | _ => exact converted
    | object ref =>
      cases t with
      | object name =>
        have alike : ∀ o, strict.accepts o name = lax.accepts o name := by
          intro o
          rw [accepts, accepts, isSubtype, isSubtype, registered]
        simp only [alike] at converted
        exact converted
      | _ => exact converted
    | _ => exact converted

/-- **A laxer policy converts all that a stricter one converts, and to the same values.** -/
theorem convert_of_laxer {v w : Value} {t : ValueType}
    (converted : strict.convert view v t = .ok w) : lax.convert view v t = .ok w := by
  induction v generalizing t w with
  | list items ih =>
    refine convert_of_laxer_of_elements laxer registered (fun items' same u mem => ?_) converted
    cases same
    exact ih u mem
  | _ =>
    exact convert_of_laxer_of_elements laxer registered (fun _ same => by cases same) converted

end Converting

/-- Types that can be converted can be by another converter that narrows if the first one does. -/
theorem canConvert_of_narrows {c d : StandardConverter} {s t : ValueType}
    (able : c.canConvert s t) (narrows : c.narrowing ≠ .never → d.narrowing ≠ .never)
    (registered : c.hierarchy = d.hierarchy) : d.canConvert s t := by
  induction s generalizing t with
  | number a =>
    unfold canConvert at able ⊢
    cases t with
    | number b =>
      simp only [Bool.or_eq_true, decide_eq_true_eq] at able ⊢
      exact able.imp_right (Or.imp_right narrows)
    | _ => exact able
  | list s ih =>
    cases t with
    | list t =>
      rw [canConvert_list] at able ⊢
      exact ih able
    | _ =>
      unfold canConvert at able ⊢
      exact able
  | object sub =>
    cases t with
    | object sup =>
      rw [canConvert_object, isSubtype] at able ⊢
      rw [← registered]
      exact able
    | _ =>
      unfold canConvert at able ⊢
      exact able
  | _ =>
    unfold canConvert at able ⊢
    cases t <;> exact able

/-- **Policies are ordered, and never disagree.** With the same types registered, if any are, what
the policy `never` converts `lossless` converts to the same value, and what `lossless` converts
`truncating` does. Types that can be converted under `never` can be under `lossless`, and under
`truncating` exactly those can be that can be under `lossless`. -/
theorem policies_nested (hierarchy : Option Hierarchy) :
    let never : StandardConverter := { narrowing := .never, hierarchy }
    let lossless : StandardConverter := { narrowing := .lossless, hierarchy }
    let truncating : StandardConverter := { narrowing := .truncating, hierarchy }
    (∀ view v t w,
      (never.convert view v t = .ok w → lossless.convert view v t = .ok w) ∧
      (lossless.convert view v t = .ok w → truncating.convert view v t = .ok w)) ∧
    ∀ s t,
      (never.canConvert s t → lossless.canConvert s t) ∧
      (lossless.canConvert s t ↔ truncating.canConvert s t) := by
  intro never lossless truncating
  constructor
  · intro view v t w
    have stricter : never.narrowing.laxity ≤ lossless.narrowing.laxity := Nat.le_succ 0
    have laxer : lossless.narrowing.laxity ≤ truncating.narrowing.laxity := Nat.le_succ 1
    exact ⟨convert_of_laxer stricter rfl, convert_of_laxer laxer rfl⟩
  · intro s t
    have losslessly : lossless.narrowing ≠ .never := nofun
    have truncated : truncating.narrowing ≠ .never := nofun
    refine ⟨fun able => ?_, fun able => ?_, fun able => ?_⟩
    · exact canConvert_of_narrows able (fun _ => losslessly) rfl
    · exact canConvert_of_narrows able (fun _ => truncated) rfl
    · exact canConvert_of_narrows able (fun _ => losslessly) rfl

/-- Nested lists of integers are widened under every policy, and narrowed under the two that allow
it where nothing is lost. -/
theorem policies_nested_of_lists :
    let never : StandardConverter := { narrowing := .never }
    let lossless : StandardConverter := { narrowing := .lossless }
    let truncating : StandardConverter := { narrowing := .truncating }
    let narrow : Value := .list [.list [.int 7, .int 8], .list []]
    let wide : Value := .list [.list [.long 7, .long 8], .list []]
    let view : View := fun _ => none
    (never.convert view narrow (.list (.list .long)) = .ok wide ∧
      lossless.convert view narrow (.list (.list .long)) = .ok wide) ∧
    (lossless.convert view wide (.list (.list .int)) = .ok narrow ∧
      truncating.convert view wide (.list (.list .int)) = .ok narrow) ∧
    never.canConvert (.list .int) (.list .long) ∧
    lossless.canConvert (.list .int) (.list .long) := by
  intro never lossless truncating narrow wide view
  have widened : never.convert view narrow (.list (.list .long)) = .ok wide := rfl
  have narrowed : lossless.convert view wide (.list (.list .int)) = .ok narrow := rfl
  have able : never.canConvert (.list .int) (.list .long) := by decide
  have nested := policies_nested none
  exact ⟨⟨widened, (nested.1 view narrow _ wide).1 widened⟩,
    ⟨narrowed, (nested.1 view wide _ narrow).2 narrowed⟩, able, (nested.2 _ _).1 able⟩

end StandardConverter

end HostExpr
