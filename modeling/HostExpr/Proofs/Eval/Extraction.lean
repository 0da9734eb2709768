import HostExpr.Proofs.Conversion.Conceals
import HostExpr.Proofs.Eval.Conduct

/-!
Taking data out of a converted value.

The standard converter is a retraction: what is converted conforms to the type asked for, what
conforms to it already stays as it is, and so converting once more changes nothing. A value that
conforms to a primitive type is data of that type (`Extractor.Primitive.extract_eq_some`). Since no
operator, no conversion and no access complains that data cannot be extracted (`NoMisfit`), the
extraction of primitive data never does: `StandardConverter.retracts` is the result.
-/

namespace HostExpr

/-! ### Answers without a misfit -/

/-- The failure to extract data from a value that was converted to the type of the data. -/
def EvalError.isMisfit : EvalError → Bool
  | .typeMismatch (.notExtractable _) => true
  | _ => false

section Answers

variable {α β : Type} {answer : Except EvalError α}

/-- The answer is not that a value is of another type than the one it was converted to. -/
def NoMisfit (answer : Except EvalError α) : Prop :=
  ∀ e, answer = .error e → e.isMisfit = false

namespace NoMisfit

theorem ok (a : α) : NoMisfit (.ok a) := by
  intro e same
  cases same

theorem error {e : EvalError} (h : e.isMisfit = false) :
    NoMisfit (.error e : Except EvalError α) := by
  intro e' same
  cases same
  exact h

/-- Another answer may fail in the same way. -/
theorem again {e : EvalError} (h : NoMisfit (.error e : Except EvalError α)) :
    NoMisfit (.error e : Except EvalError β) :=
  error (h e rfl)

theorem map (h : NoMisfit answer) (f : α → β) : NoMisfit (answer.map f) := by
  cases answer with
  | ok a => exact .ok (f a)
  | error e => exact h.again

theorem bind {f : α → Except EvalError β} (h : NoMisfit answer) (next : ∀ a, NoMisfit (f a)) :
    NoMisfit (answer.bind f) := by
  cases answer with
  | ok a => exact next a
  | error e => exact h.again

/-- In a series the first step that fails gives the answer. -/
theorem mapM {f : α → Except EvalError β} {l : List α} (each : ∀ a ∈ l, NoMisfit (f a)) :
    NoMisfit (l.mapM f) := by
  cases ran : l.mapM f with
  | ok results => exact .ok results
  | error e =>
    obtain ⟨a, mem, failed⟩ := exists_of_mapM_eq_error ran
    have here := each a mem
    rw [failed] at here
    exact here.again

theorem reported {resolver : String} {e : AccessError} {x : EvalError}
    (reports : e.ReportedAs resolver x) : NoMisfit (.error x : Except EvalError α) := by
  cases reports <;> exact error rfl

end NoMisfit

end Answers

/-! ### Conversions -/

namespace StandardConverter

variable {c : StandardConverter} {view : View}

theorem readText_noMisfit (s : String) (t : ValueType) : NoMisfit (readText s t) := by
  unfold readText
  dsimp only
  split
  · exact .ok _
  · exact .error rfl

theorem convertNumber_noMisfit (n : Number) (k : NumericKind) : NoMisfit (c.convertNumber n k) := by
  unfold convertNumber
  dsimp only
  split
  · exact .ok _
  · split
    · exact .ok _
    · exact .error rfl
    · split
      · exact .ok _
      · exact .error rfl

/-- A conversion that fails does so for a reason of its own, if those of the elements of a list
do. -/
theorem convert_noMisfit_of_elements {v : Value}
    (elements : ∀ items, v = .list items → ∀ u ∈ items, ∀ t, NoMisfit (c.convert view u t))
    (t : ValueType) : NoMisfit (c.convert view v t) := by
  by_cases trivial : t = .any ∨ v.valueType view = t
  · rw [convert_of_trivial trivial]
    exact .ok v
  · unfold convert
    rw [if_neg trivial]
    cases v with
    | null =>
      dsimp only
      split
      · exact .error rfl
      · exact .ok _
    | boolean b =>
      cases t with
      | string => exact .ok _
      | _ => exact .error rfl
    | number n =>
      cases t with
      | number k => exact convertNumber_noMisfit n k
      | string => exact .ok _
      | _ => exact .error rfl
    | string s =>
      dsimp only
      split
      · exact readText_noMisfit s t
      · exact .error rfl
    | list items =>
      cases t with
      | list element =>
        dsimp only
        rw [convertAll_eq_mapM]
        exact NoMisfit.map (.mapM fun u mem => elements items rfl u mem element) _
      | _ => exact .error rfl
    | object ref =>
      cases t with
      | object name =>
        dsimp only
        split
        · exact .ok _
        · exact .error rfl
      | _ => exact .error rfl

theorem convert_noMisfit (v : Value) (t : ValueType) : NoMisfit (c.convert view v t) := by
  induction v generalizing t with
  | list items ih =>
    refine convert_noMisfit_of_elements (fun items' same u mem => ?_) t
    cases same
    exact ih u mem
  | _ => exact convert_noMisfit_of_elements (fun _ same => by cases same) t

theorem convertArguments_noMisfit (method : String) (s : Signature) (args : List Value) :
    NoMisfit (c.toConverter.convertArguments view method s args) := by
  have each : ∀ pairs, NoMisfit (c.toConverter.convertEach view pairs) :=
    fun pairs => .mapM fun p _ => convert_noMisfit p.1 p.2
  have collected : ∀ tail element, NoMisfit (c.toConverter.collect view tail element) := by
    intro tail element
    unfold TypeConverter.collect
    split
    · split
      · exact convert_noMisfit _ _
      · exact (each _).map _
    · exact (each _).map _
  unfold TypeConverter.convertArguments
  split
  · refine (each _).bind fun fixed => ?_
    cases s.rest with
    | none => exact .ok _
    | some element => exact (collected _ _).bind fun w => .ok _
  · exact .error rfl

end StandardConverter

/-! ### Operators -/

namespace Value

variable (view : View)

theorem truth_noMisfit (operator : String) (v : Value) : NoMisfit (v.truth view operator) := by
  cases v with
  | boolean b => exact .ok b
  | _ => exact .error rfl

theorem compare_noMisfit (operator : String) (a b : Value) :
    NoMisfit (a.compare view operator b) := by
  unfold compare
  split
  · exact .ok _
  · exact .ok _
  · exact .ok _
  · exact .error rfl

theorem arithmetic_noMisfit (op : ArithmeticOperator) (a b : Value) :
    NoMisfit (a.arithmetic view op b) := by
  unfold arithmetic
  split
  · exact .ok _
  · unfold calculate
    split
    · split
      · exact .ok _
      · exact .error rfl
    · exact .error rfl

end Value

namespace Context

theorem strictBinary_noMisfit (view : View) (op : BinaryOperator) (l r : Value) :
    NoMisfit (strictBinary view op l r) := by
  have ordered := l.compare_noMisfit view op.symbol r
  cases op with
  | or => exact .error rfl
  | and => exact .error rfl
  | equal => exact .ok _
  | notEqual => exact .ok _
  | lessThan => exact ordered.map _
  | lessThanEqual => exact ordered.map _
  | greaterThan => exact ordered.map _
  | greaterThanEqual => exact ordered.map _
  | arithmetic op => exact l.arithmetic_noMisfit view op r

theorem unaryResult_noMisfit (view : View) (op : UnaryOperator) (v : Value) :
    NoMisfit (unaryResult view op v) := by
  cases op with
  | not => exact (v.truth_noMisfit view _).map _
  | minus =>
    cases v with
    | number n => exact .ok _
    | _ => exact .error rfl
  | plus =>
    unfold unaryResult
    dsimp only
    split
    · exact .ok _
    · exact .error rfl

/-! ### Tasks -/

section Turns

variable {σ : Type} {ctx : Context σ} {view : View} {active : Value} {values : List Value}
  {answer : Except EvalError Value}

theorem valueOf_noMisfit (ctx : Context σ) (active : Value) (name : String) :
    NoMisfit (ctx.valueOf active name) := by
  unfold valueOf
  split
  · exact .ok _
  · split
    · exact .ok _
    · split
      · exact .ok _
      · exact .error rfl

/-- Who has visited its operands turns to what comes last. -/
theorem eq_of_eachOf {object : Value} {operands : List Expr} {last : Turn}
    (next : Turn.eachOf object operands values last = .finish answer) : last = .finish answer := by
  unfold Turn.eachOf at next
  split at next
  · cases next
  · exact next

theorem eq_of_along {first : Value} {segments : List Expr} {last : Value → Turn}
    (next : Turn.along first segments values last = .finish answer) :
    ∃ v, last v = .finish answer := by
  unfold Turn.along at next
  dsimp only at next
  split at next
  · cases next
  · exact ⟨_, next⟩

theorem noMisfit_of_byTruth {operator : String} {v : Value} {k : Bool → Turn}
    (next : Turn.byTruth view operator v k = .finish answer)
    (others : ∀ b, k b = .finish answer → NoMisfit answer) : NoMisfit answer := by
  cases v with
  | boolean b => exact others b next
  | _ =>
    cases next
    exact .error rfl

theorem noMisfit_of_assignTurn {target : Expr} {value : Value}
    (next : assignTurn active target value values = .finish answer) : NoMisfit answer := by
  cases target with
  | property i s name => cases next
  | path i s segments =>
    rw [assignTurn_path] at next
    cases last : lastProperty segments with
    | error e =>
      rw [last] at next
      cases next
      unfold lastProperty at last
      split at last <;> cases last <;> exact .error rfl
    | ok found =>
      rw [last] at next
      obtain ⟨v, finish⟩ := eq_of_along next
      cases finish
  | _ =>
    cases next
    exact .error rfl

theorem noMisfit_of_binaryTurn {op : BinaryOperator} {left right : Expr}
    (next : binaryTurn view active op left right values = .finish answer) : NoMisfit answer := by
  unfold binaryTurn at next
  split at next
  · cases next
  · split at next
    · cases next
    · refine noMisfit_of_byTruth next fun b finish => ?_
      split at finish
      · cases finish
        exact .ok _
      · cases finish
  · split at next
    · cases next
      exact strictBinary_noMisfit view op _ _
    · refine noMisfit_of_byTruth next fun b finish => ?_
      cases finish
      exact .ok _

/-- **No node ends with a misfit** of its own. -/
theorem noMisfit_of_evaluateTurn {e : Expr}
    (next : ctx.evaluateTurn view active e values = .finish answer) : NoMisfit answer := by
  -- A turn that visits an operand or makes an access gives no answer itself.
  cases e with
  | literal i s value =>
    cases next
    exact .ok _
  | «variable» i s name =>
    cases next
    exact valueOf_noMisfit ctx active name
  | property i s name => cases next
  | call i s name args => cases eq_of_eachOf next
  | path i s segments =>
    unfold evaluateTurn at next
    obtain ⟨v, finish⟩ := eq_of_along next
    cases finish
    exact .ok v
  | binary i s op l r => exact noMisfit_of_binaryTurn next
  | unary i s op operand =>
    cases values with
    | nil => cases next
    | cons v rest =>
      cases next
      exact unaryResult_noMisfit view op v
  | ternary i s condition whenTrue whenFalse =>
    match values with
    | [] => cases next
    | [v] =>
      refine noMisfit_of_byTruth next fun b finish => ?_
      cases finish
    | _ :: v :: _ =>
      cases next
      exact .ok v
  | list i s items =>
    cases eq_of_eachOf next
    exact .ok _
  | assign i s target value =>
    cases values with
    | nil => cases next
    | cons v rest => exact noMisfit_of_assignTurn next

end Turns

end Context

/-! ### Accesses -/

section Accesses

variable {σ ρ α : Type} {w w' : σ} {events : List (Event σ)}

theorem Question.Answered.noMisfit {q : Question σ ρ α} {members : List (Nat × ρ)}
    {answer : Except EvalError (Option (Nat × ρ × α))}
    (asked : q.Answered members w events answer w') : NoMisfit answer := by
  induction asked with
  | byNobody => exact .ok _
  | declined _ _ ih => exact ih
  | accepted _ => exact .ok _
  | failed _ reports => exact .reported reports

theorem Performed.noMisfit {name : String} {act : HostM σ α}
    {note : Except AccessError α → Interaction} {value : α → Value} {answer : Except EvalError Value}
    (performed : Performed name act note value w events answer w') : NoMisfit answer := by
  cases performed with
  | achieved _ => exact .ok _
  | failed _ reports => exact .reported reports

theorem Context.coerced_noMisfit {ctx : Context σ} {c : StandardConverter}
    (standard : ctx.converter = c.toConverter) (view : View) (method : String)
    (signature : Option Signature) (args : List Value) :
    NoMisfit (ctx.coerced view method signature args) := by
  cases signature with
  | none => exact .ok args
  | some s =>
    unfold coerced
    rw [standard]
    exact StandardConverter.convertArguments_noMisfit method s args

variable [Host σ]

theorem Pursued.noMisfit {q : Question σ ρ α} {c : Chain ρ} {missing : View → EvalError}
    {use : Nat → ρ → α → Account σ Value} {answer : Except EvalError Value}
    (pursued : Pursued q c missing use w events answer w')
    (absent : ∀ view, NoMisfit (.error (missing view) : Except EvalError Value))
    (used : ∀ i r a w events answer w', use i r a w events answer w' → NoMisfit answer) :
    NoMisfit answer := by
  cases pursued with
  | missing _ => exact absent _
  | failed asked => exact asked.noMisfit.again
  | found _ use_found => exact used _ _ _ _ _ _ _ use_found

namespace Context

variable {ctx : Context σ} {reenter : Reenter σ} {c : StandardConverter}
  (standard : ctx.converter = c.toConverter)

include standard

theorem Accesses.noMisfit {a : Access} {answer : Except EvalError Value}
    (accessed : ctx.Accesses reenter a w events answer w') : NoMisfit answer := by
  cases a with
  | read target property =>
    refine Pursued.noMisfit accessed (fun _ => .error rfl) fun _ _ _ _ _ _ _ performed => ?_
    exact performed.noMisfit
  | write target property value =>
    refine Pursued.noMisfit accessed (fun _ => .error rfl) fun _ _ _ _ _ _ _ performed => ?_
    exact performed.noMisfit
  | call target method args =>
    refine Pursued.noMisfit accessed (fun _ => .error rfl) ?_
    intro i r executor at_call _ _ _ called
    cases called with
    | refused coercion =>
      have refusal := coerced_noMisfit standard (Host.view at_call) method executor.signature args
      rw [coercion] at refusal
      exact refusal.again
    | entered _ performed => exact performed.noMisfit

/-- **No task ends with a misfit** if arguments are converted by a standard converter. -/
theorem Conducts.noMisfit {active : Value} {task : Task} {values : List Value}
    {answer : Except EvalError Value}
    (conducted : ctx.Conducts reenter active task values w events answer w') : NoMisfit answer := by
  induction conducted with
  | @finish _ task _ _ _ next =>
    cases task with
    | evaluate e => exact noMisfit_of_evaluateTurn next
    | assign target value => exact noMisfit_of_assignTurn next
  | access _ accessed => exact Accesses.noMisfit standard accessed
  | visit _ _ _ _ ih => exact ih
  | fail _ _ ih => exact ih

end Context

end Accesses

/-! ### Extraction -/

inductive Extractor.Primitive : {α : Type} → Extractor α → Prop where
  | boolean : Primitive Extractor.boolean
  | int : Primitive Extractor.int
  | long : Primitive Extractor.long
  | float : Primitive Extractor.float
  | double : Primitive Extractor.double

/-- A value of a numeric type is a number of its kind. -/
theorem StandardConverter.Conforms.exists_number {c : StandardConverter} {view : View} {w : Value}
    {k : NumericKind} (conforms : c.Conforms view w (.number k)) :
    ∃ n, w = .number n ∧ n.kind = k := by
  cases conforms with
  | null reference => cases reference
  | number kind => exact ⟨_, rfl, kind⟩

/-- **Primitive data is taken out of every value of its type.** -/
theorem Extractor.Primitive.extract_eq_some {α : Type} {x : Extractor α} (primitive : x.Primitive)
    {c : StandardConverter} {view : View} {w : Value} (conforms : c.Conforms view w x.type) :
    ∃ a, x.extract w = some a := by
  cases primitive with
  | boolean =>
    cases conforms with
    | null reference => cases reference
    | boolean => exact ⟨_, rfl⟩
  | int | long | float | double =>
    obtain ⟨n, rfl, kind⟩ := conforms.exists_number
    cases n <;> cases kind
    exact ⟨_, rfl⟩

section Compiled

variable {σ α : Type} [Host σ] {ctx : Context σ} (compiled : Compiled) (reenter : Reenter σ)
  (world : σ)

theorem Compiled.result_getTypedValue (expected : ValueType) :
    (compiled.getTypedValue ctx reenter expected world).result =
      (compiled.getValue ctx reenter world).result.bind fun v =>
        ctx.converter.convert (Host.view (compiled.getValue ctx reenter world).world) v expected :=
  rfl

theorem Compiled.result_getExtracted (x : Extractor α) :
    (compiled.getExtracted ctx reenter x world).result =
      (compiled.getTypedValue ctx reenter x.type world).result.bind fun v =>
        match x.extract v with
        | some a => .ok a
        | none => .error (.typeMismatch (.notExtractable x.type)) := rfl

variable {c : StandardConverter} (standard : ctx.converter = c.toConverter)

include standard

theorem Compiled.getValue_noMisfit : NoMisfit (compiled.getValue ctx reenter world).result := by
  obtain ⟨events, answer, world', cache, ran, conducted⟩ :=
    (Context.conducted_by_turns compiled.expr).1 (compiled.entry ctx world)
  have result : (compiled.getValue ctx reenter world).result = answer := congrArg Prod.fst ran
  rw [result]
  exact Context.Conducts.noMisfit standard conducted

theorem Compiled.getTypedValue_noMisfit (expected : ValueType) :
    NoMisfit (compiled.getTypedValue ctx reenter expected world).result := by
  rw [result_getTypedValue, standard]
  refine (getValue_noMisfit compiled reenter world standard).bind fun v => ?_
  exact StandardConverter.convert_noMisfit v expected

/-- Primitive data is extracted whenever the value can be converted. -/
theorem Compiled.getExtracted_of_getTypedValue {x : Extractor α} (primitive : x.Primitive)
    {w : Value} (typed : (compiled.getTypedValue ctx reenter x.type world).result = .ok w) :
    ∃ a, x.extract w = some a ∧ (compiled.getExtracted ctx reenter x world).result = .ok a := by
  have conforms : c.Conforms (Host.view (compiled.getValue ctx reenter world).world) w x.type := by
    rw [result_getTypedValue] at typed
    cases evaluated : (compiled.getValue ctx reenter world).result with
    | error e =>
      rw [evaluated] at typed
      cases typed
    | ok v =>
      rw [evaluated, standard] at typed
      exact StandardConverter.convert_conforms typed
  obtain ⟨a, found⟩ := primitive.extract_eq_some conforms
  refine ⟨a, found, ?_⟩
  rw [result_getExtracted, typed, Except.bind, found]

theorem Compiled.getExtracted_noMisfit {x : Extractor α} (primitive : x.Primitive) :
    NoMisfit (compiled.getExtracted ctx reenter x world).result := by
  have converted := getTypedValue_noMisfit compiled reenter world standard x.type
  cases typed : (compiled.getTypedValue ctx reenter x.type world).result with
  | error e =>
    rw [typed] at converted
    rw [result_getExtracted, typed]
    exact converted.again
  | ok w =>
    obtain ⟨a, _, extracted⟩ :=
      getExtracted_of_getTypedValue compiled reenter world standard primitive typed
    rw [extracted]
    exact .ok a

end Compiled

namespace StandardConverter

/-- A converter takes each value into its target type, and moves none that is there already. -/
structure Retracts (c : StandardConverter) : Prop where
  conforms : ∀ view v t w, c.convert view v t = .ok w → c.Conforms view w t
  unmoved : ∀ view v t, c.Conforms view v t → c.convert view v t = .ok v
  /-- Converting once more to the same type changes nothing. -/
  again : ∀ view v t, ((c.convert view v t).bind fun w => c.convert view w t) = c.convert view v t
  /-- So where the converter is installed, primitive data is taken out of every result that can be
  converted, and an extraction never fails because a result is not of the type. -/
  extracts : ∀ (σ : Type) [Host σ] (ctx : Context σ), ctx.converter = c.toConverter →
    ∀ (compiled : Compiled) (reenter : Reenter σ) (world : σ) (α : Type) (x : Extractor α),
      x.Primitive →
        (∀ w, (compiled.getTypedValue ctx reenter x.type world).result = .ok w →
          ∃ a, x.extract w = some a ∧
            (compiled.getExtracted ctx reenter x world).result = .ok a) ∧
        ∀ t, (compiled.getExtracted ctx reenter x world).result ≠
          .error (.typeMismatch (.notExtractable t))

/-- **Conversion is a retraction onto the target type**, so primitive data can always be extracted
from what was converted to its type. -/
theorem retracts (c : StandardConverter) : c.Retracts where
  conforms view v t w := convert_conforms
  unmoved view v t := convert_of_conforms
  again view v t := by
    cases converted : c.convert view v t with
    | error e => rfl
    | ok w => exact convert_of_conforms (convert_conforms converted)
  extracts σ _ ctx standard compiled reenter world α x primitive := by
    constructor
    · exact fun w => compiled.getExtracted_of_getTypedValue reenter world standard primitive
    · intro t misfit
      cases compiled.getExtracted_noMisfit reenter world standard primitive _ misfit

end StandardConverter

end HostExpr
