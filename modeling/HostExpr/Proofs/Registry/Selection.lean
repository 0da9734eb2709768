import HostExpr.Proofs.Conversion.Blame
import HostExpr.Proofs.Registry.Access

/-!
Overloads that are selected take their arguments.

A resolver over a registry selects an overload by the types of the arguments, the evaluator prepares
the arguments themselves. Both agree on the number of arguments, on whether a single one in the
variable position is the collected list, and on what can be converted
(`StandardConverter.convertArguments_of_fit`).
-/

namespace HostExpr

/-- The type that the argument at a position has to become, when so many are supplied. A single
argument in the variable position may be required as the collected list. -/
inductive Signature.Requires (s : Signature) (supplied : Nat) : Nat → ValueType → Prop where
  | fixed {i : Nat} {t : ValueType} (at_i : s.fixed[i]? = some t) : s.Requires supplied i t
  | element {i : Nat} {t : ValueType} (rest : s.rest = some t) (beyond : s.required ≤ i) :
      s.Requires supplied i t
  | collected {t : ValueType} (rest : s.rest = some t) (single : supplied = s.required + 1) :
      s.Requires supplied s.required (.list t)

namespace StandardConverter

variable {c : StandardConverter} {view : View}

/-- What an overload accepts is converted, unless it is to blame. -/
theorem convert_of_accepts {v : Value} {t : ValueType}
    (accepted : Fit.accepts c.toConverter (v.valueType view) t) :
    SucceedsUnless (c.Blames v t) (c.toConverter.convert view v t) := by
  rcases (Bool.or_eq_true ..).mp accepted with same | able
  · rw [show c.toConverter.convert view v t = c.convert view v t from rfl,
      convert_of_trivial (.inr (of_decide_eq_true same))]
    exact .ok v
  · exact convert_of_canConvert able

/-- Values that are each accepted are converted, unless one is to blame. -/
theorem convertEach_of_accepts {pairs : List (Value × ValueType)}
    (accepted : ∀ p ∈ pairs, Fit.accepts c.toConverter (p.1.valueType view) p.2) :
    SucceedsUnless (fun mismatch => ∃ p ∈ pairs, c.Blames p.1 p.2 mismatch)
      (c.toConverter.convertEach view pairs) :=
  .mapM fun p mem => convert_of_accepts (accepted p mem)

theorem canConvert_of_isCollectedSequence {t element : ValueType}
    (h : c.toConverter.isCollectedSequence t (.list element)) :
    c.canConvert t (.list element) := by
  cases t with
  | null =>
    unfold canConvert
    simp [ValueType.isPrimitive, ValueType.isNumeric, ValueType.kind?]
  | list inner => exact h
  | _ => cases h

/-- An argument in the variable position is to blame: as an element, or the only one as the list. -/
def BlamesRest (c : StandardConverter) (tail : List Value) (element : ValueType)
    (mismatch : Mismatch) : Prop :=
  ∃ v ∈ tail, c.Blames v element mismatch ∨ tail.length = 1 ∧ c.Blames v (.list element) mismatch

/-- Arguments that are accepted in the variable position are collected, unless one is to blame. -/
theorem collect_of_acceptsRest {tail : List Value} {element : ValueType}
    (accepted : Fit.acceptsRest c.toConverter element (tail.map (Value.valueType view))) :
    SucceedsUnless (c.BlamesRest tail element) (c.toConverter.collect view tail element) := by
  have separately : (∀ v ∈ tail, Fit.accepts c.toConverter (v.valueType view) element) →
      SucceedsUnless (c.BlamesRest tail element)
        ((c.toConverter.convertEach view (tail.map (·, element))).map Value.list) := by
    intro all
    refine ((convertEach_of_accepts fun p mem => ?_).mono fun mismatch blamed => ?_).map _
    · obtain ⟨v, member, rfl⟩ := List.mem_map.mp mem
      exact all v member
    · obtain ⟨p, mem, blamed⟩ := blamed
      obtain ⟨v, member, rfl⟩ := List.mem_map.mp mem
      exact ⟨v, member, .inl blamed⟩
  have all_of_not_collected : (∀ v, tail = [v] →
      ¬c.toConverter.isCollectedSequence (v.valueType view) (.list element)) →
      ∀ v ∈ tail, Fit.accepts c.toConverter (v.valueType view) element := by
    intro notCollected v mem
    rcases (Bool.or_eq_true ..).mp accepted with collected | all
    · match tail, notCollected with
      | [], _ => cases mem
      | [w], notCollected => exact absurd collected (notCollected w rfl)
      | _ :: _ :: _, _ => cases collected
    · exact List.all_eq_true.mp all _ (List.mem_map_of_mem mem)
  unfold TypeConverter.collect
  dsimp only
  split
  · next v =>
    split
    · next collected =>
      refine (convert_of_canConvert (canConvert_of_isCollectedSequence collected)).mono ?_
      intro mismatch blamed
      exact ⟨v, by simp, .inr ⟨rfl, blamed⟩⟩
    · next notCollected =>
      refine separately (all_of_not_collected fun w same => ?_)
      cases same
      exact notCollected
  · next several =>
    exact separately (all_of_not_collected fun w same => absurd same (several w))

def BlamesArgument (c : StandardConverter) (s : Signature) (args : List Value)
    (mismatch : Mismatch) : Prop :=
  ∃ i v t, args[i]? = some v ∧ s.Requires args.length i t ∧ c.Blames v t mismatch

/-- **Arguments that fit a signature are prepared for it**, unless one of them is to blame. -/
theorem convertArguments_of_fit {method : String} {s : Signature} {args : List Value} {fit : Fit}
    (fits : Fit.of c.toConverter s (args.map (Value.valueType view)) = some fit) :
    SucceedsUnless (c.BlamesArgument s args)
      (c.toConverter.convertArguments view method s args) := by
  unfold Fit.of at fits
  dsimp only at fits
  split at fits
  · next accepted =>
    obtain ⟨arity, pairs⟩ := (Bool.and_eq_true ..).mp accepted
    rw [List.length_map] at arity
    have fixed : SucceedsUnless (c.BlamesArgument s args)
        (c.toConverter.convertEach view (args.zip s.fixed)) := by
      refine (convertEach_of_accepts fun p mem => ?_).mono fun mismatch blamed => ?_
      · have mem' : (p.1.valueType view, p.2) ∈ (args.map (Value.valueType view)).zip s.fixed := by
          rw [List.zip_map_left]
          exact List.mem_map_of_mem mem
        exact List.all_eq_true.mp pairs _ mem'
      · obtain ⟨p, mem, blamed⟩ := blamed
        obtain ⟨i, at_i⟩ := List.mem_iff_getElem?.mp mem
        obtain ⟨arg, param⟩ := List.getElem?_zip_eq_some.mp at_i
        exact ⟨i, p.1, p.2, arg, .fixed param, blamed⟩
    unfold TypeConverter.convertArguments
    rw [if_pos arity]
    refine fixed.bind fun ws => ?_
    cases rest : s.rest with
    | none => exact .ok ws
    | some element =>
      simp only [rest] at fits
      split at fits
      · next restAccepted =>
        rw [← List.map_drop] at restAccepted
        refine SucceedsUnless.bind ?_ fun w => .ok _
        refine (collect_of_acceptsRest restAccepted).mono fun mismatch blamed => ?_
        obtain ⟨v, mem, blamed⟩ := blamed
        obtain ⟨j, at_j⟩ := List.mem_iff_getElem?.mp mem
        rw [List.getElem?_drop] at at_j
        rcases blamed with asElement | ⟨single, asList⟩
        · exact ⟨_, v, element, at_j, .element rest (Nat.le_add_right ..), asElement⟩
        · have first : j = 0 := by
            have inside := (List.getElem?_eq_some_iff.mp at_j).1
            rw [List.length_drop] at single
            omega
          subst first
          have length : args.length = s.required + 1 := by
            rw [List.length_drop] at single
            omega
          exact ⟨s.required, v, _, at_j, .collected rest length, asList⟩
      · cases fits
  · cases fits

end StandardConverter

namespace TypeRegistry

variable {σ : Type}

/-- The best of some candidates is one of those that fit. -/
theorem fit_of_best? {c : TypeConverter} {argTypes : List ValueType}
    {candidates : List (MethodDef σ)} {fit : Fit} {m : MethodDef σ}
    (h : best? c argTypes candidates = some (fit, m)) :
    m ∈ candidates ∧ Fit.of c m.signature argTypes = some fit := by
  induction candidates generalizing fit m with
  | nil => cases h
  | cons first rest ih =>
    rw [best?] at h
    cases here : Fit.of c first.signature argTypes with
    | none =>
      rw [here] at h
      obtain ⟨mem, fits⟩ := ih h
      exact ⟨List.mem_cons_of_mem first mem, fits⟩
    | some own =>
      rw [here] at h
      cases later : best? c argTypes rest with
      | none =>
        rw [later] at h
        cases h
        exact ⟨List.mem_cons_self, here⟩
      | some found =>
        obtain ⟨other, n⟩ := found
        simp only [later] at h
        split at h
        · cases h
          exact ⟨List.mem_cons_self, here⟩
        · cases h
          obtain ⟨mem, fits⟩ := ih later
          exact ⟨List.mem_cons_of_mem first mem, fits⟩

/-- An overload that is selected is a best one of those that are visible. -/
theorem best?_of_select {r : TypeRegistry σ} {c : TypeConverter} {typeName method : String}
    {argTypes : List ValueType} {m : MethodDef σ}
    (h : r.select c typeName method argTypes = .ok (some m)) :
    ∃ fit, best? c argTypes (r.findMethods typeName method) = some (fit, m) := by
  unfold select at h
  dsimp only at h
  split at h
  · next fit n best =>
    cases h
    exact ⟨fit, best⟩
  · split at h <;> cases h

/-- An overload that is selected fits. -/
theorem fit_of_select {r : TypeRegistry σ} {c : TypeConverter} {typeName method : String}
    {argTypes : List ValueType} {m : MethodDef σ}
    (h : r.select c typeName method argTypes = .ok (some m)) :
    ∃ fit, Fit.of c m.signature argTypes = some fit := by
  obtain ⟨fit, best⟩ := best?_of_select h
  exact ⟨fit, (fit_of_best? best).2⟩

variable [Host σ] {c : StandardConverter}

/-- **A selected overload takes its arguments.** If a resolver over a registry finds a method for
the types of some arguments, preparing the arguments for its signature succeeds, or it fails with a
mismatch for which a scalar in one of them is to blame: a text that cannot be read, or a number that
a lossless conversion to a narrower kind would change. -/
theorem selected_takes_arguments (r : TypeRegistry σ) {env : Environment σ}
    (converter : env.converter = c.toConverter) {target : Value} {method : String}
    {args : List Value} {world world' : σ} {executor : Executor σ}
    (resolved : (r.methodResolver.resolve env target method
        (args.map (Value.valueType (Host.view world)))).run.run world =
      (.ok (some executor), world')) :
    ∃ signature, executor.signature = some signature ∧
      SucceedsUnless (c.BlamesArgument signature args)
        (env.converter.convertArguments (Host.view world) method signature args) := by
  have notNull : target.isNull = false := by
    cases null : target.isNull with
    | false => rfl
    | true =>
      unfold methodResolver at resolved
      simp only [null] at resolved
      cases resolved
  rw [r.run_resolve env notNull, converter] at resolved
  cases selected : r.select c.toConverter (target.typeName (Host.view world)) method
    (args.map (Value.valueType (Host.view world))) with
  | error failure =>
    rw [selected] at resolved
    cases resolved
  | ok found =>
    rw [selected] at resolved
    cases found with
    | none => cases resolved
    | some m =>
      cases resolved
      obtain ⟨fit, fits⟩ := fit_of_select selected
      rw [converter]
      exact ⟨m.signature, rfl, StandardConverter.convertArguments_of_fit fits⟩

/-- For an integer a text may be given; what no integer can be read from is to blame. -/
theorem selected_takes_arguments_of_unreadable_text :
    let c : StandardConverter := {}
    let env : Environment Unit :=
      { converter := c.toConverter, reenter := fun _ => pure (.ok .null) }
    let args : List Value := [.string "first"]
    let method : MethodDef Unit := ⟨{ fixed := [.int] }, fun _ _ _ => pure .null⟩
    let registry : TypeRegistry Unit :=
      ({} : TypeRegistry Unit).register
        (({ name := "List" } : TypeDescriptor Unit).addMethod "get" method.signature method.run)
    (registry.methodResolver.resolve env (.list []) "get"
        (args.map (Value.valueType (Host.view ())))).run.run () =
        (.ok (some (executor method)), ()) ∧
      c.toConverter.convertArguments (Host.view ()) "get" method.signature args =
        .error (.typeMismatch (.unreadable "first" .int)) ∧
      ∃ signature, (executor method).signature = some signature ∧
        SucceedsUnless (c.BlamesArgument signature args)
          (c.toConverter.convertArguments (Host.view ()) "get" signature args) := by
  intro c env args method registry
  have resolved : (registry.methodResolver.resolve env (.list []) "get"
      (args.map (Value.valueType (Host.view ())))).run.run () =
      (.ok (some (executor method)), ()) := rfl
  have taken := selected_takes_arguments registry rfl resolved
  exact ⟨resolved, rfl, taken⟩

end TypeRegistry

end HostExpr
