import HostExpr.Proofs.Conversion.Conforms
import Mathlib.Data.Nat.PSub

/-!
How arguments are packed into parameters.

Each argument is converted once, in the order of the arguments: those of the fixed parameters to
these, the others to the element type of the variable position, unless a single one is the collected
list already (`TypeConverter.targets`). Only then are the others put into one list
(`TypeConverter.pack`). So nothing is lost, repeated or reordered, and of several arguments that
cannot be converted the first one is to blame: `TypeConverter.convertArguments_packs`.
-/

namespace HostExpr

/-! ### Arguments in variable position -/

namespace Signature

variable {s : Signature}

theorem isVariadic_of_fixed (fixed : s.rest = none) : s.isVariadic = false := by
  rw [isVariadic, fixed, Option.isSome_none]

theorem isVariadic_of_rest {element : ValueType} (rest : s.rest = some element) :
    s.isVariadic = true := by
  rw [isVariadic, rest, Option.isSome_some]

theorem params_of_fixed (fixed : s.rest = none) : s.params = s.fixed := by
  simp [params, fixed]

theorem params_of_rest {element : ValueType} (rest : s.rest = some element) :
    s.params = s.fixed ++ [.list element] := by
  simp [params, rest]

/-- Any number of arguments may follow those of the fixed parameters of a variadic signature. -/
theorem accepts_of_rest {element : ValueType} (rest : s.rest = some element) (more : Nat) :
    s.accepts (s.required + more) := by
  simp [accepts, isVariadic_of_rest rest]

/-- Without variable position there is one argument for each parameter. -/
theorem eq_required_of_accepts {supplied : Nat} (fixed : s.rest = none)
    (accepted : s.accepts supplied) : supplied = s.required := by
  simpa [accepts, isVariadic_of_fixed fixed] using accepted

/-- A variable position is one parameter more. -/
theorem length_params (s : Signature) :
    s.params.length = s.required + s.rest.toList.length := by
  rw [params, List.length_append, Option.length_toList, Option.length_toList, Option.isSome_map]
  rfl

/-- The arguments that follow those of the fixed parameters belong to none of these. -/
theorem zip_fixed_append {α : Type} {fixed : List α} (count : fixed.length = s.required)
    (tail : List α) : (fixed ++ tail).zip s.fixed = fixed.zip s.fixed := by
  have split : (fixed ++ tail).zip (s.fixed ++ []) = fixed.zip s.fixed ++ tail.zip [] :=
    List.zip_append count
  rwa [List.append_nil, List.zip_nil_right, List.append_nil] at split

/-- Types after the fixed parameters belong to the arguments after those of the fixed parameters. -/
theorem zip_append_fixed {α : Type} {args : List α} (enough : s.required ≤ args.length)
    (more : List ValueType) :
    args.zip (s.fixed ++ more) = args.zip s.fixed ++ (args.drop s.required).zip more := by
  have count : (args.take s.required).length = s.required := List.length_take_of_le enough
  calc args.zip (s.fixed ++ more)
      = (args.take s.required ++ args.drop s.required).zip (s.fixed ++ more) := by
        rw [List.take_append_drop]
    _ = (args.take s.required).zip s.fixed ++ (args.drop s.required).zip more :=
        List.zip_append count
    _ = args.zip s.fixed ++ (args.drop s.required).zip more := by
        rw [← zip_fixed_append count (args.drop s.required), List.take_append_drop]

end Signature

namespace TypeConverter

/-- Where the arguments of the fixed parameters are converted, what follows them is collected. -/
theorem convertArguments_append {c : TypeConverter} {view : View} {s : Signature}
    {element : ValueType} (rest : s.rest = some element) {args prepared : List Value}
    (count : args.length = s.required)
    (converted : c.convertEach view (args.zip s.fixed) = .ok prepared) (method : String)
    (tail : List Value) :
    c.convertArguments view method s (args ++ tail) =
      (c.collect view tail element).map fun collected => prepared ++ [collected] := by
  unfold convertArguments
  rw [List.length_append, count, if_pos (Signature.accepts_of_rest rest _),
    Signature.zip_fixed_append count, converted, rest, List.drop_left' count]
  show (c.collect view tail element >>= fun collected => pure (prepared ++ [collected])) = _
  cases c.collect view tail element <;> rfl

/-! ### One conversion for each argument -/

section Packing

variable (c : TypeConverter) (view : View) (s : Signature) (args : List Value)

/-- Whether the only argument after the fixed parameters is the collected list itself. -/
def arrivesCollected : Bool :=
  match s.rest, args.drop s.required with
  | some element, [arg] => c.isCollectedSequence (arg.valueType view) (.list element)
  | _, _ => false

/-- The types that the arguments are converted to, one for each. -/
def targets : List ValueType :=
  match s.rest with
  | none => s.fixed
  | some element =>
    if c.arrivesCollected view s args then s.fixed ++ [.list element]
    else s.fixed ++ List.replicate (args.length - s.required) element

/-- Converted arguments as the method receives them: those in variable position are in one list. -/
def pack (values : List Value) : List Value :=
  if s.isVariadic && !c.arrivesCollected view s args then
    values.take s.required ++ [.list (values.drop s.required)]
  else values

/-- What comes of converting values to the types beside them, one after another, and bringing the
results into a shape: the first failure, if there is one. -/
inductive InTurn (pairs : List (Value × ValueType)) (shape : List Value → List Value) :
    Except EvalError (List Value) → Prop where
  | all {values : List Value}
      (each : List.Forall₂ (fun p w => c.convert view p.1 p.2 = .ok w) pairs values) :
      InTurn pairs shape (.ok (shape values))
  | failed {before after : List (Value × ValueType)} {v : Value} {t : ValueType} {e : EvalError}
      (split : pairs = before ++ (v, t) :: after)
      (earlier : ∀ p ∈ before, ∃ w, c.convert view p.1 p.2 = .ok w)
      (failure : c.convert view v t = .error e) :
      InTurn pairs shape (.error e)

variable {c view s args}

theorem convertEach_inTurn (pairs : List (Value × ValueType)) (shape : List Value → List Value) :
    c.InTurn view pairs shape ((c.convertEach view pairs).map shape) := by
  cases converted : c.convertEach view pairs with
  | ok values => exact .all (forall₂_of_mapM_eq_ok converted)
  | error e =>
    obtain ⟨before, ⟨v, t⟩, after, split, earlier, failure⟩ :=
      exists_first_of_mapM_eq_error converted
    exact .failed split earlier failure

theorem convertEach_append (front back : List (Value × ValueType)) :
    c.convertEach view (front ++ back) = do
      let first ← c.convertEach view front
      let second ← c.convertEach view back
      return first ++ second := by
  simp only [convertEach, List.mapM_append]

/-- A list that arrives collected is the only argument after the fixed parameters. -/
theorem exists_of_arrivesCollected {element : ValueType} (rest : s.rest = some element)
    (collected : c.arrivesCollected view s args) :
    ∃ arg, args.drop s.required = [arg] ∧
      c.isCollectedSequence (arg.valueType view) (.list element) := by
  unfold arrivesCollected at collected
  rw [rest] at collected
  generalize args.drop s.required = tail at collected ⊢
  rcases tail with _ | ⟨arg, _ | ⟨second, others⟩⟩
  · cases collected
  · exact ⟨arg, rfl, collected⟩
  · cases collected

/-- Arguments that do not arrive collected are converted one by one. -/
theorem collect_of_not_arrivesCollected {element : ValueType} (rest : s.rest = some element)
    (separate : c.arrivesCollected view s args = false) :
    c.collect view (args.drop s.required) element =
      (c.convertEach view ((args.drop s.required).map (·, element))).map .list := by
  unfold arrivesCollected at separate
  rw [rest] at separate
  generalize args.drop s.required = tail at separate ⊢
  rcases tail with _ | ⟨arg, _ | ⟨second, others⟩⟩
  · rfl
  · have separate : c.isCollectedSequence (arg.valueType view) (.list element) = false := separate
    rw [collect, separate]
    rfl
  · rfl

/-- What is collected follows the other arguments. -/
theorem convertArguments_of_rest {element : ValueType} (rest : s.rest = some element)
    (method : String) (accepted : s.accepts args.length) :
    c.convertArguments view method s args = do
      let first ← c.convertEach view (args.zip s.fixed)
      let last ← c.collect view (args.drop s.required) element
      return first ++ [last] := by
  rw [convertArguments, if_pos accepted, rest]

/-- A signature without variable position has each argument converted to its own parameter. -/
theorem convertArguments_of_fixed (fixed : s.rest = none) (method : String)
    (accepted : s.accepts args.length) :
    c.convertArguments view method s args = c.convertEach view (args.zip s.fixed) := by
  rw [convertArguments, if_pos accepted, fixed]
  exact bind_pure _

/-- The collected list is converted like an argument of a fixed parameter. -/
theorem convertArguments_of_arrivesCollected {element : ValueType} (rest : s.rest = some element)
    (method : String) (accepted : s.accepts args.length)
    (collected : c.arrivesCollected view s args) :
    c.convertArguments view method s args =
      c.convertEach view (args.zip (s.fixed ++ [.list element])) := by
  obtain ⟨arg, tail, sequence⟩ := exists_of_arrivesCollected rest collected
  have collect : c.collect view [arg] element = c.convert view arg (.list element) :=
    if_pos sequence
  have single : c.convertEach view [(arg, .list element)] =
      (do return [← c.convert view arg (.list element)]) := by
    simp [convertEach]
  rw [convertArguments_of_rest rest method accepted,
    Signature.zip_append_fixed (Signature.required_le_of_accepts accepted), tail, collect,
    List.zip_cons_cons, List.zip_nil_left, convertEach_append, single]
  simp only [bind_assoc, pure_bind]

/-- Other arguments are converted one by one, and those after the fixed parameters become a list. -/
theorem convertArguments_of_not_arrivesCollected {element : ValueType}
    (rest : s.rest = some element) (method : String) (accepted : s.accepts args.length)
    (separate : c.arrivesCollected view s args = false) :
    c.convertArguments view method s args =
      (c.convertEach view
        (args.zip (s.fixed ++ List.replicate (args.length - s.required) element))).map
          fun values => values.take s.required ++ [.list (values.drop s.required)] := by
  have enough := Signature.required_le_of_accepts accepted
  have alike : (args.drop s.required).zip (List.replicate (args.length - s.required) element) =
      (args.drop s.required).map (·, element) := by
    rw [← List.length_drop]
    generalize args.drop s.required = tail
    calc tail.zip (List.replicate tail.length element)
        = (tail.map id).zip (tail.map fun _ => element) := by rw [List.map_id, List.map_const']
      _ = tail.map (·, element) := List.zip_map'
  rw [convertArguments_of_rest rest method accepted, Signature.zip_append_fixed enough, alike,
    collect_of_not_arrivesCollected rest separate, convertEach_append]
  cases converted : c.convertEach view (args.zip s.fixed) with
  | error e => rfl
  | ok first =>
    have count : first.length = s.required := by
      rw [← (forall₂_of_mapM_eq_ok converted).length_eq, List.length_zip]
      exact Nat.min_eq_right enough
    cases c.convertEach view ((args.drop s.required).map (·, element)) with
    | error e => rfl
    | ok second =>
      show Except.ok (first ++ [.list second]) = .ok ((first ++ second).take s.required ++ _)
      rw [List.take_left' count, List.drop_left' count]

/-- **Preparing arguments is converting each of them to its own type and packing the results.** -/
theorem convertArguments_eq_map_pack (method : String) (accepted : s.accepts args.length) :
    c.convertArguments view method s args =
      (c.convertEach view (args.zip (c.targets view s args))).map (c.pack view s args) := by
  have unpacked (pairs : List (Value × ValueType)) :
      c.convertEach view pairs = (c.convertEach view pairs).map fun values => values := by
    cases c.convertEach view pairs <;> rfl
  unfold targets pack
  cases rest : s.rest with
  | none =>
    rw [convertArguments_of_fixed rest method accepted, Signature.isVariadic_of_fixed rest]
    exact unpacked _
  | some element =>
    have variadic := Signature.isVariadic_of_rest rest
    cases collected : c.arrivesCollected view s args with
    | true =>
      rw [convertArguments_of_arrivesCollected rest method accepted collected, variadic]
      exact unpacked _
    | false =>
      rw [convertArguments_of_not_arrivesCollected rest method accepted collected, variadic]
      rfl

/-- A list that arrives collected is one argument more. -/
theorem length_of_arrivesCollected {element : ValueType} (rest : s.rest = some element)
    (enough : s.required ≤ args.length) (collected : c.arrivesCollected view s args) :
    args.length = s.required + 1 := by
  obtain ⟨arg, tail, -⟩ := exists_of_arrivesCollected rest collected
  have count := congrArg List.length tail
  rw [List.length_drop, List.length_singleton] at count
  omega

/-- Every argument has a type that it is converted to. -/
theorem length_targets (accepted : s.accepts args.length) :
    (c.targets view s args).length = args.length := by
  have enough := Signature.required_le_of_accepts accepted
  unfold targets
  cases rest : s.rest with
  | none => exact (Signature.eq_required_of_accepts rest accepted).symm
  | some element =>
    cases collected : c.arrivesCollected view s args with
    | true =>
      show (s.fixed ++ [_]).length = _
      rw [List.length_append, length_of_arrivesCollected rest enough collected]
      rfl
    | false =>
      show (s.fixed ++ List.replicate _ _).length = _
      rw [List.length_append, List.length_replicate]
      exact Nat.add_sub_of_le enough

/-- A method receives one value for each of its parameters. -/
theorem length_pack {values : List Value} (count : values.length = args.length)
    (accepted : s.accepts args.length) :
    (c.pack view s args values).length = s.params.length := by
  have enough := Signature.required_le_of_accepts accepted
  rw [Signature.length_params]
  unfold pack Signature.isVariadic
  cases rest : s.rest with
  | none => exact count.trans (Signature.eq_required_of_accepts rest accepted)
  | some element =>
    cases collected : c.arrivesCollected view s args with
    | true => exact count.trans (length_of_arrivesCollected rest enough collected)
    | false =>
      show (values.take s.required ++ [_]).length = _
      rw [List.length_append, List.length_take_of_le (count ▸ enough)]
      rfl

/-! ### The same with positions -/

def splitOff? {α : Type} (l : List α) (place : Nat) : Option (List α × List α) :=
  if place ≤ l.length then some (l.take place, l.drop place) else none

def collectAs (c : TypeConverter) (view : View) (tail : List Value) (sequence : ValueType) :
    Except EvalError Value :=
  let each := (c.convertEach view (tail.map (·, sequence.element?.getD .any))).map .list
  match tail with
  | [arg] =>
    if c.isCollectedSequence (arg.valueType view) sequence then c.convert view arg sequence
    else each
  | _ => each

/-- Preparing arguments with positions among parameters and arguments. Where a position or a place
to split does not exist there is nothing. -/
def convertArguments? (c : TypeConverter) (view : View) (method : String) (s : Signature)
    (args : List Value) : Option (Except EvalError (List Value)) :=
  if s.accepts args.length then
    if s.isVariadic then do
      let fixed ← s.params.length.ppred
      let sequence ← s.params[fixed]?
      let (front, tail) ← splitOff? args fixed
      return do
        let first ← c.convertEach view (front.zip s.params)
        let last ← c.collectAs view tail sequence
        return first ++ [last]
    else some (c.convertEach view (args.zip s.params))
  else some (.error (.arityMismatch method s.arityText args.length))

theorem collectAs_list (tail : List Value) (element : ValueType) :
    c.collectAs view tail (.list element) = c.collect view tail element := by
  rcases tail with _ | ⟨arg, _ | ⟨second, others⟩⟩ <;> rfl

/-- **No position is out of range.** The count of the arguments was checked before, and a variable
position is always the last of the parameters. -/
theorem convertArguments?_eq_some (method : String) :
    c.convertArguments? view method s args = some (c.convertArguments view method s args) := by
  unfold convertArguments?
  cases accepted : s.accepts args.length with
  | false =>
    rw [convertArguments, accepted]
    rfl
  | true =>
    have enough := Signature.required_le_of_accepts accepted
    cases rest : s.rest with
    | none =>
      rw [convertArguments_of_fixed rest method accepted, Signature.params_of_fixed rest,
        Signature.isVariadic_of_fixed rest]
      rfl
    | some element =>
      have variadic := Signature.isVariadic_of_rest rest
      have params := Signature.params_of_rest rest
      have count : s.params.length.ppred = some s.required := by
        rw [Signature.length_params, rest]
        rfl
      have sequence : s.params[s.required]? = some (.list element) := by
        rw [params]
        exact List.getElem?_concat_length
      -- The list of parameters is longer than the front of the arguments by the variable position.
      have front : (args.take s.required).zip s.params = args.zip s.fixed := by
        have taken : (args.take s.required).length = s.required := List.length_take_of_le enough
        rw [params, Signature.zip_append_fixed (Nat.le_of_eq taken.symm),
          List.drop_of_length_le (Nat.le_of_eq taken),
          List.zip_nil_left, List.append_nil,
          ← Signature.zip_fixed_append taken (args.drop s.required), List.take_append_drop]
      rw [convertArguments_of_rest rest method accepted, if_pos rfl, if_pos variadic, count]
      simp only [Option.bind_eq_bind, Option.bind_some, sequence, splitOff?, if_pos enough, front,
        collectAs_list]
      rfl

end Packing

/-- **The packing law.** A call with a number of arguments that the signature does not accept fails
for that. In any other call each argument is converted to its own type, one after another, and the
results are packed into as many values as there are parameters, or the first failure is that of the
call. So a call fails for the number of its arguments only if that does not fit, or if a converter
of the host fails in this way by itself. Nothing is looked up beyond the parameters, and the
arguments are not split beyond their end. -/
theorem convertArguments_packs (c : TypeConverter) (view : View) (method : String) (s : Signature)
    (args : List Value) :
    let result := c.convertArguments view method s args
    (s.accepts args.length = false →
      result = .error (.arityMismatch method s.arityText args.length)) ∧
    (s.accepts args.length →
      (c.targets view s args).length = args.length ∧
      c.InTurn view (args.zip (c.targets view s args)) (c.pack view s args) result ∧
      ∀ packed, result = .ok packed → packed.length = s.params.length) ∧
    ((∀ v t name text count, c.convert view v t ≠ .error (.arityMismatch name text count)) →
      ((∃ name text count, result = .error (.arityMismatch name text count)) ↔
        s.accepts args.length = false)) ∧
    c.convertArguments? view method s args = some result := by
  intro result
  have rejected : s.accepts args.length = false →
      result = .error (.arityMismatch method s.arityText args.length) := fun rejected => by
    show c.convertArguments view method s args = _
    rw [convertArguments, rejected]
    rfl
  have inTurn : s.accepts args.length →
      c.InTurn view (args.zip (c.targets view s args)) (c.pack view s args) result :=
    fun accepted => by
      show c.InTurn view _ _ (c.convertArguments view method s args)
      rw [convertArguments_eq_map_pack method accepted]
      exact convertEach_inTurn _ _
  refine ⟨rejected, fun accepted => ⟨length_targets accepted, inTurn accepted, ?_⟩, ?_,
    convertArguments?_eq_some method⟩
  · intro packed same
    have converted := inTurn accepted
    rw [same] at converted
    cases converted with
    | all each =>
      refine length_pack ?_ accepted
      rw [← each.length_eq, List.length_zip, length_targets accepted, Nat.min_self]
  · intro countless
    refine ⟨fun ⟨name, text, count, same⟩ => ?_, fun rejects => ⟨_, _, _, rejected rejects⟩⟩
    cases accepted : s.accepts args.length with
    | false => rfl
    | true =>
      have converted := inTurn accepted
      rw [same] at converted
      cases converted with
      | failed _ _ failure => exact absurd failure (countless _ _ _ _ _)

/-- A converter that takes everything for a list still gets each argument once. -/
theorem convertArguments_packs_of_variadic :
    let c : TypeConverter := { canConvert := fun _ _ => true, convert := fun _ v _ => .ok v }
    let s : Signature := ⟨[.string], some .boolean⟩
    let call (args : List Value) := c.convertArguments (fun _ => none) "all" s args
    call [.string "x", .null] = .ok [.string "x", .null] ∧
      call [.string "x", .null, .null] = .ok [.string "x", .list [.null, .null]] ∧
      call [.string "x"] = .ok [.string "x", .list []] ∧
      ∃ name text count, call [] = .error (.arityMismatch name text count) := by
  intro c s call
  exact ⟨rfl, rfl, rfl, ((convertArguments_packs c (fun _ => none) "all" s []).2.2.1 nofun).2 rfl⟩

end TypeConverter

end HostExpr
