import HostExpr.Proofs.Conversion.Conceals
import HostExpr.Proofs.Conversion.Packing
import HostExpr.Proofs.Registry.Selection

/-!
Calls that a resolver over a registry accepts.

Whenever a visible overload fits the types of the arguments, some overload is found
(`TypeRegistry.resolve_of_fit`). Arguments that convert to the fixed parameters of an overload fit
it if their types show that they do (`StandardConverter.fit_of_convert`). A list that conforms to
the elements of a variadic parameter is taken as the collected list exactly if its type shows that
(`StandardConverter.isCollectedSequence_iff`).
-/

namespace HostExpr

/-! ### Arguments in variable position -/

/-- A variadic signature fits if its fixed parameters and its rest accept the arguments. -/
theorem Fit.of_append {c : TypeConverter} {s : Signature} {element : ValueType}
    (rest : s.rest = some element) {fixed : List ValueType} (count : fixed.length = s.required)
    (tail : List ValueType) :
    Fit.of c s (fixed ++ tail) =
      if (fixed.zip s.fixed).all (fun p => accepts c p.1 p.2) && acceptsRest c element tail then
        some .variadic else none := by
  unfold Fit.of
  dsimp only
  rw [List.length_append, count, Signature.accepts_of_rest rest, Signature.zip_fixed_append count,
    rest, List.drop_left' count, Bool.true_and]
  cases (fixed.zip s.fixed).all fun p => accepts c p.1 p.2 <;> rfl

/-! ### Arguments that are converted -/

namespace StandardConverter

variable {c : StandardConverter} {view : View}

/-- A value that is converted is accepted by its type, unless the type conceals it. -/
theorem accepts_of_convert {v w : Value} {t : ValueType}
    (converted : c.toConverter.convert view v t = .ok w) (shown : ¬c.Conceals view v t) :
    Fit.accepts c.toConverter (v.valueType view) t :=
  (Bool.or_eq_true ..).mpr (.inr (canConvert_of_convert converted shown))

/-- Arguments that are each converted are accepted by their types, unless a type conceals it. -/
theorem all_accepts_of_convert {args : List Value} {params : List ValueType}
    (converted : ∀ p ∈ args.zip params, ∃ w, c.toConverter.convert view p.1 p.2 = .ok w)
    (shown : ∀ p ∈ args.zip params, ¬c.Conceals view p.1 p.2) :
    ((args.map (Value.valueType view)).zip params).all
      fun p => Fit.accepts c.toConverter p.1 p.2 := by
  rw [List.zip_map_left, List.all_map]
  refine List.all_eq_true.mpr fun p mem => ?_
  obtain ⟨w, becomes⟩ := converted p mem
  exact accepts_of_convert becomes (shown p mem)

/-- Arguments that convert to fixed parameters fit them, unless a type conceals it. -/
theorem fit_of_convert {s : Signature} (fixedArity : s.rest = none) {args : List Value}
    (count : args.length = s.required)
    (converted : ∀ p ∈ args.zip s.fixed, ∃ w, c.toConverter.convert view p.1 p.2 = .ok w)
    (shown : ∀ p ∈ args.zip s.fixed, ¬c.Conceals view p.1 p.2) :
    ∃ fit, Fit.of c.toConverter s (args.map (Value.valueType view)) = some fit := by
  have arity : s.accepts (args.map (Value.valueType view)).length := by
    simp [Signature.accepts, Signature.isVariadic, fixedArity, count]
  unfold Fit.of
  dsimp only
  rw [arity, all_accepts_of_convert converted shown, fixedArity]
  exact ⟨_, rfl⟩

/-! ### A list in the variable position -/

variable {items : List Value} {element : ValueType}

/-- A list that conforms is taken for the collected list unless its type conceals it. -/
theorem isCollectedSequence_iff (conforms : ∀ v ∈ items, c.Conforms view v element) :
    c.toConverter.isCollectedSequence ((Value.list items).valueType view) (.list element) ↔
      ¬c.Conceals view (.list items) (.list element) := by
  have unchanged : c.convert view (.list items) (.list element) = .ok (.list items) :=
    convert_of_conforms (.list conforms)
  rw [show c.toConverter.isCollectedSequence ((Value.list items).valueType view) (.list element) =
    c.canConvert ((Value.list items).valueType view) (.list element) from rfl]
  constructor
  · intro able concealed
    rw [canConvert_eq_false_of_conceals concealed] at able
    cases able
  · exact canConvert_of_convert unchanged

/-- A list that conforms is collected as it is if its type shows that. -/
theorem collect_of_shown (conforms : ∀ v ∈ items, c.Conforms view v element)
    (shown : ¬c.Conceals view (.list items) (.list element)) :
    c.toConverter.collect view [.list items] element = .ok (.list items) ∧
      Fit.acceptsRest c.toConverter element [(Value.list items).valueType view] := by
  have collected := (isCollectedSequence_iff conforms).mpr shown
  constructor
  · unfold TypeConverter.collect
    dsimp only
    rw [if_pos collected]
    exact convert_of_conforms (.list conforms)
  · exact (Bool.or_eq_true ..).mpr (.inl collected)

/-- A list whose type conceals that it conforms is no element either, unless elements are lists. -/
theorem collect_of_concealed (conforms : ∀ v ∈ items, c.Conforms view v element)
    (notList : element.element? = none)
    (concealed : c.Conceals view (.list items) (.list element)) :
    c.toConverter.collect view [.list items] element =
        .error (.inconvertible ((Value.list items).valueType view) element) ∧
      Fit.acceptsRest c.toConverter element [(Value.list items).valueType view] = false := by
  have notAny : element ≠ .any := by
    cases concealed with
    | unlike unlike asked => exact asked
    | element mem inner => exact inner.ne_any
  have notCollected : ¬c.toConverter.isCollectedSequence ((Value.list items).valueType view)
      (.list element) := fun collected => (isCollectedSequence_iff conforms).mp collected concealed
  have notElement : (Value.list items).valueType view ≠ element := by
    rintro rfl
    cases notList
  constructor
  · have refused : c.convert view (.list items) element =
        .error (.inconvertible ((Value.list items).valueType view) element) := by
      unfold convert
      rw [if_neg (not_or.mpr ⟨notAny, notElement⟩)]
      cases element with
      | list inner => cases notList
      | _ => rfl
    unfold TypeConverter.collect TypeConverter.convertEach
    dsimp only
    rw [if_neg notCollected, List.map_singleton, List.mapM_cons,
      show c.toConverter.convert view (.list items) element = _ from refused]
    rfl
  · have refused : Fit.accepts c.toConverter ((Value.list items).valueType view) element = false :=
      (Bool.or_eq_false_iff ..).mpr
        ⟨decide_eq_false notElement, canConvert_list_eq_false notAny notList⟩
    unfold Fit.acceptsRest
    simp [notCollected, refused]

end StandardConverter

/-! ### Resolving -/

namespace TypeRegistry

variable {σ : Type}

/-- Where a candidate fits, one of them is best. -/
theorem exists_best? {c : TypeConverter} {argTypes : List ValueType}
    {candidates : List (MethodDef σ)} {m : MethodDef σ} {fit : Fit} (mem : m ∈ candidates)
    (fits : Fit.of c m.signature argTypes = some fit) :
    ∃ best, best? c argTypes candidates = some best := by
  apply Option.ne_none_iff_exists'.mp
  intro none_best
  rw [best?_eq_none_iff.mp none_best m mem] at fits
  cases fits

variable [Host σ]

/-- **Where a visible overload fits, an overload is found**, and looking for it changes nothing. -/
theorem resolve_of_fit (r : TypeRegistry σ) (env : Environment σ) {target : Value}
    (notNull : target.isNull = false) {method : String} {argTypes : List ValueType} {world : σ}
    {m : MethodDef σ} (visible : m ∈ r.findMethods (target.typeName (Host.view world)) method)
    {fit : Fit} (fits : Fit.of env.converter m.signature argTypes = some fit) :
    ∃ n ∈ r.findMethods (target.typeName (Host.view world)) method,
      (r.methodResolver.resolve env target method argTypes).run.run world =
        (.ok (some (executor n)), world) := by
  obtain ⟨⟨other, n⟩, best⟩ := exists_best? visible fits
  refine ⟨n, (fit_of_best? best).1, ?_⟩
  rw [r.run_resolve env notNull]
  unfold select
  dsimp only
  rw [best]
  rfl

/-- **Arguments that convert are accepted** unless a type conceals it: so does a converter that is
asked about the type of a value which it converts, and so does a resolver over a registry that is
asked for an overload to whose fixed parameters all arguments convert. -/
theorem converted_is_accepted (c : StandardConverter) :
    (∀ (view : View) (v w : Value) (t : ValueType), c.convert view v t = .ok w →
      ¬c.Conceals view v t → c.canConvert (v.valueType view) t) ∧
    ∀ (r : TypeRegistry σ) (env : Environment σ) (target : Value) (method : String)
      (m : MethodDef σ) (args : List Value) (world : σ),
      env.converter = c.toConverter → target.isNull = false →
      m ∈ r.findMethods (target.typeName (Host.view world)) method → m.signature.rest = none →
      args.length = m.signature.required →
      (∀ p ∈ args.zip m.signature.fixed, ∃ w, c.convert (Host.view world) p.1 p.2 = .ok w) →
      (∀ p ∈ args.zip m.signature.fixed, ¬c.Conceals (Host.view world) p.1 p.2) →
      ∃ n ∈ r.findMethods (target.typeName (Host.view world)) method,
        (r.methodResolver.resolve env target method
          (args.map (Value.valueType (Host.view world)))).run.run world =
            (.ok (some (executor n)), world) := by
  constructor
  · intro view v w t converted shown
    exact StandardConverter.canConvert_of_convert converted shown
  · intro r env target method m args world converter notNull visible fixedArity count converted
      shown
    obtain ⟨fit, fits⟩ := StandardConverter.fit_of_convert fixedArity count converted shown
    rw [← converter] at fits
    exact r.resolve_of_fit env notNull visible fits

/-- A list of two integers is converted to texts, and accepted where texts are asked for. -/
theorem converted_is_accepted_of_integers :
    let c : StandardConverter := {}
    let items : Value := .list [.int 1, .int 2]
    let env : Environment Unit :=
      { converter := c.toConverter, reenter := fun _ => pure (.ok .null) }
    let method : MethodDef Unit := ⟨{ fixed := [.list .string] }, fun _ _ _ => pure .null⟩
    let registry : TypeRegistry Unit :=
      ({} : TypeRegistry Unit).register
        (({ name := "String" } : TypeDescriptor Unit).addMethod "join" method.signature method.run)
    c.canConvert (items.valueType (Host.view ())) (.list .string) ∧
      ∃ n ∈ registry.findMethods "String" "join",
        (registry.methodResolver.resolve env (.string ",") "join" [.list .int]).run.run () =
          (.ok (some (executor n)), ()) := by
  intro c items env method registry
  have becomes : c.convert (Host.view ()) items (.list .string) =
      .ok (.list [.string "1", .string "2"]) := rfl
  have shown : ¬c.Conceals (Host.view ()) (.list [.int 1, .int 2]) (.list .string) := by
    rintro (⟨unlike, -⟩ | ⟨mem, inner⟩)
    · cases unlike
    · rcases List.mem_cons.mp mem with rfl | mem
      · cases inner
      · obtain rfl := List.mem_singleton.mp mem
        cases inner
  have accepted := converted_is_accepted (σ := Unit) c
  refine ⟨accepted.1 _ _ _ _ becomes shown, ?_⟩
  refine accepted.2 registry env (.string ",") "join" method [items] () rfl rfl
    List.mem_cons_self rfl rfl ?_ ?_
  · intro p mem
    obtain rfl := List.mem_singleton.mp mem
    exact ⟨_, becomes⟩
  · intro p mem
    obtain rfl := List.mem_singleton.mp mem
    exact shown

/-- A list of an integer and a text is converted to texts, and an object that says that it is an
animal is converted to one, but the types of neither show that. Nothing can be called on null, even
if a method is registered for it and the arguments are of the declared types. -/
theorem converted_types_refused :
    let c : StandardConverter := {}
    let view : View := fun _ => some
      { typeName := "Dog", isInstanceOf := fun name => name = "Dog" || name = "Animal", text := "" }
    let items : Value := .list [.int 1, .string "x"]
    let dog : Value := .object ⟨0⟩
    let env : Environment Unit :=
      { converter := c.toConverter, reenter := fun _ => pure (.ok .null) }
    let method : MethodDef Unit := ⟨{ fixed := [.int] }, fun _ _ _ => pure (.int 1)⟩
    let registry : TypeRegistry Unit :=
      ({} : TypeRegistry Unit).register
        (({ name := "null" } : TypeDescriptor Unit).addMethod "size" method.signature method.run)
    (c.convert view items (.list .string) = .ok (.list [.string "1", .string "x"]) ∧
      c.canConvert (items.valueType view) (.list .string) = false) ∧
    (c.convert view dog (.object "Animal") = .ok dog ∧
      c.canConvert (dog.valueType view) (.object "Animal") = false) ∧
    method ∈ registry.findMethods (Value.null.typeName (Host.view ())) "size" ∧
      c.convert (Host.view ()) (.int 1) .int = .ok (.int 1) ∧
      (registry.methodResolver.resolve env .null "size" [.int]).run.run () = (.ok none, ()) :=
  ⟨⟨rfl, rfl⟩, ⟨rfl, rfl⟩, List.mem_cons_self, rfl, rfl⟩

/-- **A list that conforms to the elements of a variadic parameter is passed as it is**, and the
overload fits the call, if the type of the list shows that. If the type conceals it, the call is
refused, both where arguments are prepared and where an overload is selected. -/
theorem conforming_list_passed (c : StandardConverter) (world : σ) (method : String)
    {s : Signature} {element : ValueType} (rest : s.rest = some element)
    (notList : element.element? = none) {args prepared items : List Value}
    (count : args.length = s.required)
    (converted : c.toConverter.convertEach (Host.view world) (args.zip s.fixed) = .ok prepared)
    (conforms : ∀ v ∈ items, c.Conforms (Host.view world) v element) :
    let view := Host.view world
    let passed := args ++ [.list items]
    let types := passed.map (Value.valueType view)
    (¬c.Conceals view (.list items) (.list element) →
      c.toConverter.convertArguments view method s passed = .ok (prepared ++ [.list items]) ∧
      ((∀ p ∈ args.zip s.fixed, ¬c.Conceals view p.1 p.2) →
        Fit.of c.toConverter s types = some .variadic ∧
        ∀ (r : TypeRegistry σ) (env : Environment σ) (target : Value) (m : MethodDef σ),
          env.converter = c.toConverter → target.isNull = false →
          m ∈ r.findMethods (target.typeName view) method → m.signature = s →
          ∃ n ∈ r.findMethods (target.typeName view) method,
            (r.methodResolver.resolve env target method types).run.run world =
              (.ok (some (executor n)), world))) ∧
    (c.Conceals view (.list items) (.list element) →
      c.toConverter.convertArguments view method s passed =
        .error (.inconvertible ((Value.list items).valueType view) element) ∧
      Fit.of c.toConverter s types = none) := by
  intro view passed types
  replace conforms : ∀ v ∈ items, c.Conforms view v element := conforms
  have prepares := TypeConverter.convertArguments_append rest count converted method [.list items]
  have fit : Fit.of c.toConverter s types =
      if ((args.map (Value.valueType view)).zip s.fixed).all
          (fun p => Fit.accepts c.toConverter p.1 p.2) &&
        Fit.acceptsRest c.toConverter element [(Value.list items).valueType view] then
        some .variadic else none := by
    rw [show types = args.map (Value.valueType view) ++ [(Value.list items).valueType view] from
      List.map_append]
    exact Fit.of_append rest ((List.length_map _).trans count) _
  constructor
  · intro shown
    obtain ⟨collected, accepted⟩ := StandardConverter.collect_of_shown conforms shown
    refine ⟨by rw [prepares, collected]; rfl, fun shownFixed => ?_⟩
    have each := StandardConverter.all_accepts_of_convert
      (fun p mem => exists_of_mapM_eq_ok converted mem) shownFixed
    rw [each, accepted, Bool.and_self, if_pos rfl] at fit
    refine ⟨fit, fun r env target m converter notNull visible same => ?_⟩
    exact r.resolve_of_fit env notNull visible (by rw [converter, same]; exact fit)
  · intro concealed
    obtain ⟨refused, notAccepted⟩ :=
      StandardConverter.collect_of_concealed conforms notList concealed
    refine ⟨by rw [prepares, refused]; rfl, ?_⟩
    rw [fit, notAccepted, Bool.and_false]
    rfl

/-- A list of texts is passed as it is, after an argument that has to be converted. -/
theorem conforming_list_passed_of_texts :
    let c : StandardConverter := {}
    let s : Signature := { fixed := [.int], rest := some .string }
    let texts : Value := .list [.string "A", .string "B"]
    c.toConverter.convertArguments (Host.view ()) "any" s [.long 3, texts] = .ok [.int 3, texts] ∧
      Fit.of c.toConverter s [.long, .list .string] = some .variadic := by
  intro c s texts
  have converted : c.toConverter.convertEach (Host.view ()) ([.long 3].zip s.fixed) =
      .ok [.int 3] := rfl
  have conforms : ∀ v ∈ [Value.string "A", .string "B"],
      c.Conforms (Host.view ()) v .string := by
    intro v mem
    rcases List.mem_cons.mp mem with rfl | mem
    · exact .string
    · obtain rfl := List.mem_singleton.mp mem
      exact .string
  have passed := (conforming_list_passed c () "any" rfl rfl rfl converted conforms).1
  obtain ⟨prepared, fits⟩ := passed (by
    rintro (⟨unlike, -⟩ | ⟨mem, inner⟩)
    · cases unlike
    · cases inner)
  refine ⟨prepared, (fits ?_).1⟩
  intro p mem
  obtain rfl := List.mem_singleton.mp mem
  nofun

/-- The empty list, and a list of a text and `null`, conform to texts and are refused. -/
theorem conforming_lists_refused :
    let c : StandardConverter := {}
    let view : View := Host.view ()
    let s : Signature := { fixed := [], rest := some .string }
    let withNull : Value := .list [.string "A", .null]
    c.Conforms view (.list []) (.list .string) ∧
      c.toConverter.convertArguments view "any" s [.list []] =
        .error (.inconvertible (.list .any) .string) ∧
      Fit.of c.toConverter s [(Value.list []).valueType view] = none ∧
      c.Conforms view withNull (.list .string) ∧
      c.toConverter.convertArguments view "any" s [withNull] =
        .error (.inconvertible (.list .any) .string) ∧
      Fit.of c.toConverter s [withNull.valueType view] = none := by
  intro c view s withNull
  refine ⟨.list nofun, rfl, rfl, .list fun v mem => ?_, rfl, rfl⟩
  rcases List.mem_cons.mp mem with rfl | mem
  · exact .string
  · obtain rfl := List.mem_singleton.mp mem
    exact .null rfl

end TypeRegistry

end HostExpr
