import HostExpr.Proofs.Eval.Conversation
import HostExpr.Proofs.Expr.Induction

/-!
The order in which an evaluation goes about its operands.

`Context.turn` tells what a node turns to next when some of its operands have values already: to one
more operand, to an access, or to its end. `Context.Conducts` is an evaluation by such turns. Its
events are those of the operands that it visits, one after another, and of the access that it makes
last; an operand that fails ends it with the same failure. A computation that goes on from an
operand to the rest of a task conducts the task: `Context.follows_of_visit`, and
`Context.follows_of_row` and `Context.evaluatePath_follows` for several operands.
-/

namespace HostExpr

variable {σ : Type}

/-! ### Turns -/

inductive Task where
  | evaluate (e : Expr)
  /-- To write a value to what an expression names. It answers with the value. -/
  | assign (target : Expr) (value : Value)

inductive Turn where
  /-- Evaluates an operand, with some object as the active one. -/
  | visit (object : Value) (operand : Expr)
  | access (a : Access)
  | finish (answer : Except EvalError Value)

namespace Turn

/-- Visits operands from left to right with one active object, and then turns to something else. -/
def eachOf (object : Value) (operands : List Expr) (values : List Value) (last : Turn) : Turn :=
  match operands[values.length]? with
  | some e => .visit object e
  | none => last

/-- Visits the segments of a path from left to right, each with the value of the one before as the
active object, and makes something of the last value. -/
def along (first : Value) (segments : List Expr) (values : List Value) (last : Value → Turn) :
    Turn :=
  let current := values.getLast?.getD first
  match segments[values.length]? with
  | some e => .visit current e
  | none => last current

@[simp] theorem eachOf_nil (object : Value) (values : List Value) (last : Turn) :
    eachOf object [] values last = last := rfl

@[simp] theorem eachOf_cons_nil (object : Value) (e : Expr) (es : List Expr) (last : Turn) :
    eachOf object (e :: es) [] last = .visit object e := rfl

@[simp] theorem eachOf_cons_cons (object : Value) (e : Expr) (es : List Expr) (v : Value)
    (values : List Value) (last : Turn) :
    eachOf object (e :: es) (v :: values) last = eachOf object es values last := by
  simp [eachOf]

@[simp] theorem along_nil_nil (first : Value) (last : Value → Turn) :
    along first [] [] last = last first := rfl

@[simp] theorem along_cons_nil (first : Value) (e : Expr) (es : List Expr) (last : Value → Turn) :
    along first (e :: es) [] last = .visit first e := rfl

@[simp] theorem along_cons_cons (first : Value) (e : Expr) (es : List Expr) (v : Value)
    (values : List Value) (last : Value → Turn) :
    along first (e :: es) (v :: values) last = along v es values last := by
  simp [along, List.getLast?_cons]

/-- Goes on by the value of an operand if it is a boolean. An operator takes no other value for a
truth value. -/
def byTruth (view : View) (operator : String) (v : Value) (next : Bool → Turn) : Turn :=
  match v with
  | .boolean b => next b
  | v => .finish (.error (.typeMismatch (.operand operator (v.valueType view))))

theorem byTruth_eq (view : View) (operator : String) (v : Value) (next : Bool → Turn) :
    byTruth view operator v next =
      match v.truth view operator with
      | .ok b => next b
      | .error e => .finish (.error e) := by
  cases v <;> rfl

end Turn

/-- The truth value of the left operand with which an operator skips its right one. -/
def BinaryOperator.decidedBy : BinaryOperator → Option Bool
  | .and => some false
  | .or => some true
  | _ => none

namespace Context

variable [Host σ] (ctx : Context σ)

def valueOf (active : Value) (name : String) : Except EvalError Value :=
  if name = "root" then .ok ctx.root
  else if name = "this" then .ok active
  else
    match ctx.bindings.find? name with
    | some value => .ok value
    | none => .error (.unboundVariable name)

/-- What an assignment turns to when some segments of its target's path have values. -/
def assignTurn (active : Value) (target : Expr) (value : Value) (values : List Value) : Turn :=
  match target with
  | .property _ _ name => .access (.write active name value)
  | .path _ _ segments =>
    match segments.getLast? with
    | some (.property _ _ name) =>
      .along active segments.dropLast values fun object => .access (.write object name value)
    | some e => .finish (.error (.notAssignable (notAProperty e)))
    | none => .finish (.error (.notAssignable .emptyPath))
  | e => .finish (.error (.notAssignable (notAProperty e)))

theorem assignTurn_path (active : Value) (i : NodeId) (p : Span) (segments : List Expr)
    (value : Value) (values : List Value) :
    assignTurn active (.path i p segments) value values =
      match lastProperty segments with
      | .error e => .finish (.error e)
      | .ok (_, name) =>
        .along active segments.dropLast values fun object => .access (.write object name value) := by
  cases last : segments.getLast? with
  | none => simp only [assignTurn, lastProperty, last]
  | some e => cases e <;> simp only [assignTurn, lastProperty, last]

def binaryTurn (view : View) (active : Value) (op : BinaryOperator) (left right : Expr) :
    List Value → Turn
  | [] => .visit active left
  | [l] =>
    match op.decidedBy with
    | none => .visit active right
    | some decisive => .byTruth view op.symbol l fun b =>
      if b = decisive then .finish (.ok (.boolean decisive)) else .visit active right
  | l :: r :: _ =>
    match op.decidedBy with
    | none => .finish (strictBinary view op l r)
    | some _ => .byTruth view op.symbol r fun b => .finish (.ok (.boolean b))

def evaluateTurn (view : View) (active : Value) (e : Expr) (values : List Value) : Turn :=
  match e with
  | .literal _ _ value => .finish (.ok value.toValue)
  | .variable _ _ name => .finish (ctx.valueOf active name)
  | .property _ _ name => .access (.read active name)
  | .call _ _ name args => .eachOf ctx.root args values (.access (.call active name values))
  | .path _ _ segments => .along active segments values fun v => .finish (.ok v)
  | .binary _ _ op left right => binaryTurn view active op left right values
  | .unary _ _ op operand =>
    match values with
    | [] => .visit active operand
    | v :: _ => .finish (unaryResult view op v)
  | .ternary _ _ condition whenTrue whenFalse =>
    match values with
    | [] => .visit active condition
    | [v] => .byTruth view "?:" v fun b =>
      .visit active (if b then whenTrue else whenFalse)
    | _ :: v :: _ => .finish (.ok v)
  | .list _ _ items => .eachOf active items values (.finish (.ok (.list values)))
  | .assign _ _ target value =>
    match values with
    | [] => .visit active value
    | v :: rest => assignTurn active target v rest

def turn (view : View) (active : Value) : Task → List Value → Turn
  | .evaluate e, values => ctx.evaluateTurn view active e values
  | .assign target value, values => assignTurn active target value values

/-- A task is carried out by turns. `active` is the active object and `values` are those of the
operands that were visited before. -/
inductive Conducts (ctx : Context σ) (reenter : Reenter σ) :
    Value → Task → List Value → Account σ Value where
  | finish {active : Value} {task : Task} {values : List Value} {w : σ}
      {answer : Except EvalError Value}
      (next : ctx.turn (Host.view w) active task values = .finish answer) :
      Conducts ctx reenter active task values w [] answer w
  | access {active : Value} {task : Task} {values : List Value} {w w' : σ} {a : Access}
      {events : List (Event σ)} {answer : Except EvalError Value}
      (next : ctx.turn (Host.view w) active task values = .access a)
      (accessed : ctx.Accesses reenter a w events answer w') :
      Conducts ctx reenter active task values w events answer w'
  | visit {active : Value} {task : Task} {values : List Value} {w w' w'' : σ} {object : Value}
      {operand : Expr} {events later : List (Event σ)} {v : Value}
      {answer : Except EvalError Value}
      (next : ctx.turn (Host.view w) active task values = .visit object operand)
      (visited : Conducts ctx reenter object (.evaluate operand) [] w events (.ok v) w')
      (others : Conducts ctx reenter active task (values ++ [v]) w' later answer w'') :
      Conducts ctx reenter active task values w (events ++ later) answer w''
  | fail {active : Value} {task : Task} {values : List Value} {w w' : σ} {object : Value}
      {operand : Expr} {events : List (Event σ)} {e : EvalError}
      (next : ctx.turn (Host.view w) active task values = .visit object operand)
      (visited : Conducts ctx reenter object (.evaluate operand) [] w events (.error e) w') :
      Conducts ctx reenter active task values w events (.error e) w'

/-! ### Turns of the evaluator -/

section Turns

variable {ctx : Context σ} {reenter : Reenter σ} {active : Value} {task : Task}
  {values : List Value} {s : EvalState σ} {act : EvalM σ Value}

theorem follows_of_finish {answer : Except EvalError Value} (ran : act.outcome s = (answer, s))
    (next : ctx.turn (Host.view s.world) active task values = .finish answer) :
    act.Follows (ctx.Conducts reenter active task values) s :=
  .of_outcome ran (.finish next)

theorem follows_of_access {a : Access} (accessed : act.Follows (ctx.Accesses reenter a) s)
    (next : ctx.turn (Host.view s.world) active task values = .access a) :
    act.Follows (ctx.Conducts reenter active task values) s :=
  accessed.mono fun _ _ _ holds => .access next holds

/-- Who visits an operand goes on with its value, or ends with its failure. -/
theorem follows_of_visit {object : Value} {operand : Expr} {f : Value → EvalM σ Value}
    (visited : act.Follows (ctx.Conducts reenter object (.evaluate operand) []) s)
    (next : ctx.turn (Host.view s.world) active task values = .visit object operand)
    (others : ∀ v (s' : EvalState σ), s'.active = s.active →
      (f v).Follows (ctx.Conducts reenter active task (values ++ [v])) s') :
    (act >>= f).Follows (ctx.Conducts reenter active task values) s := by
  refine visited.bind (fun events e world failed => .fail next failed) ?_
  intro events v world visited s' at_world same
  refine (others v s' same).mono fun later answer w' holds => ?_
  rw [at_world] at holds
  exact .visit next visited holds

/-- Who goes by a truth value goes on in the same state, or ends with the failure. -/
theorem follows_of_truth {operator : String} {v : Value} {k : Bool → Turn}
    {f : Bool → EvalM σ Value}
    (next : ctx.turn (Host.view s.world) active task values =
      .byTruth (Host.view s.world) operator v k)
    (others : ∀ b, ctx.turn (Host.view s.world) active task values = k b →
      (f b).Follows (ctx.Conducts reenter active task values) s) :
    (truthOf operator v >>= f).Follows (ctx.Conducts reenter active task values) s := by
  have ran : (truthOf operator v : EvalM σ Bool).outcome s =
      (v.truth (Host.view s.world) operator, s) := by
    rw [truthOf, EvalM.outcome_bind_of_ok (EvalM.outcome_view s), EvalM.outcome_ofExcept]
  rw [Turn.byTruth_eq] at next
  cases truth : v.truth (Host.view s.world) operator with
  | error e =>
    rw [truth] at ran next
    exact follows_of_finish (EvalM.outcome_bind_of_error ran) next
  | ok b =>
    rw [truth] at ran next
    exact .after ran (others b next)

/-! ### Rows of operands -/

/-- Operands are visited from left to right with one active object, up to the first failure. -/
inductive Row (ctx : Context σ) (reenter : Reenter σ) (object : Value) :
    List Expr → Account σ (List Value) where
  | nil {w : σ} : Row ctx reenter object [] w [] (.ok []) w
  | cons {e : Expr} {es : List Expr} {w w' w'' : σ} {events later : List (Event σ)} {v : Value}
      {answer : Except EvalError (List Value)}
      (first : ctx.Conducts reenter object (.evaluate e) [] w events (.ok v) w')
      (others : Row ctx reenter object es w' later answer w'') :
      Row ctx reenter object (e :: es) w (events ++ later) (answer.map (v :: ·)) w''
  | fail {e : Expr} {es : List Expr} {w w' : σ} {events : List (Event σ)} {x : EvalError}
      (first : ctx.Conducts reenter object (.evaluate e) [] w events (.error x) w') :
      Row ctx reenter object (e :: es) w events (.error x) w'

/-- A task that visits operands next visits a row of them. It ends with the failure of the row, or
turns to what comes last with all its values. -/
theorem Row.conducts {object : Value} {operands : List Expr} {last : List Value → Turn} {w w' : σ}
    {events : List (Event σ)} {answer : Except EvalError (List Value)} (base : List Value)
    (row : ctx.Row reenter object operands w events answer w')
    (turns : ∀ view vs, ctx.turn view active task (base ++ vs) =
      .eachOf object operands vs (last (base ++ vs))) :
    (∀ x, answer = .error x → ctx.Conducts reenter active task base w events (.error x) w') ∧
    ∀ vs, answer = .ok vs →
      (∀ view, ctx.turn view active task (base ++ vs) = last (base ++ vs)) ∧
      ∀ later result w'', ctx.Conducts reenter active task (base ++ vs) w' later result w'' →
        ctx.Conducts reenter active task base w (events ++ later) result w'' := by
  induction row generalizing base with
  | nil =>
    constructor
    · intro x same
      cases same
    · intro vs same
      cases same
      constructor
      · intro view
        exact turns view []
      · intro later result w'' others
        rw [List.append_nil] at others
        exact others
  | @cons e es _ _ _ _ _ v answer first _ ih =>
    have at_first : ∀ view, ctx.turn view active task base = .visit object e := by
      intro view
      have := turns view []
      rwa [List.append_nil, Turn.eachOf_cons_nil] at this
    obtain ⟨failed, succeeded⟩ := ih (base ++ [v]) fun view vs => by
      rw [List.append_assoc, List.singleton_append, turns, Turn.eachOf_cons_cons]
    constructor
    · intro x same
      cases answer with
      | ok vs => cases same
      | error y =>
        cases same
        exact .visit (at_first _) first (failed _ rfl)
    · intro vs same
      cases answer with
      | error y => cases same
      | ok ws =>
        cases same
        have rest := succeeded ws rfl
        rw [List.append_assoc, List.singleton_append] at rest
        constructor
        · exact rest.1
        · intro later result w'' holds
          rw [List.append_assoc]
          exact .visit (at_first _) first (rest.2 later result w'' holds)
  | @fail _ _ w _ _ _ first =>
    constructor
    · intro x same
      cases same
      refine .fail ?_ first
      have := turns (Host.view w) []
      rwa [List.append_nil, Turn.eachOf_cons_nil] at this
    · intro vs same
      cases same

def EvaluatesByTurns (ctx : Context σ) (reenter : Reenter σ) (e : Expr) : Prop :=
  ∀ s : EvalState σ, (ctx.evaluate reenter e).Follows
    (ctx.Conducts reenter (s.active.head?.getD ctx.root) (.evaluate e) []) s

/-- Operands that are conducted by turns make a row. -/
theorem evaluateEach_follows {operands : List Expr}
    (each : ∀ e ∈ operands, ctx.EvaluatesByTurns reenter e) (s : EvalState σ) :
    (ctx.evaluateEach reenter operands).Follows
      (ctx.Row reenter (s.active.head?.getD ctx.root) operands) s := by
  induction operands generalizing s with
  | nil => exact .of_outcome rfl .nil
  | cons e es ih =>
    rw [evaluateEach]
    refine (each e List.mem_cons_self s).bind (fun _ _ _ failed => .fail failed) ?_
    rintro events v _ first s' rfl same
    have row := ih (fun u mem => each u (List.mem_cons_of_mem e mem)) s'
    rw [same] at row
    refine row.bind (fun later x w failed => .cons first failed) ?_
    rintro later vs _ others s'' rfl _
    refine .of_outcome rfl ?_
    rw [List.append_nil]
    exact .cons first others

/-- A task whose next operands are the segments of a path follows the path, and then turns to what
comes last with the value at its end. -/
theorem evaluatePath_follows {segments : List Expr} {base : List Value} {first : Value}
    {last : Value → Turn} {k : Value → EvalM σ Value}
    (each : ∀ e ∈ segments, ctx.EvaluatesByTurns reenter e)
    (turns : ∀ view vs, ctx.turn view active task (base ++ vs) = .along first segments vs last)
    (done : ∀ v vs (s' : EvalState σ), s'.active = s.active →
      (∀ view, ctx.turn view active task vs = last v) →
      (k v).Follows (ctx.Conducts reenter active task vs) s') :
    (ctx.evaluatePath reenter first segments >>= k).Follows
      (ctx.Conducts reenter active task base) s := by
  have at_first := fun view => turns view []
  rw [List.append_nil] at at_first
  induction segments generalizing base first s with
  | nil =>
    rw [evaluatePath, pure_bind]
    exact done first base s rfl at_first
  | cons e es ih =>
    rw [evaluatePath, bind_assoc]
    refine follows_of_visit (each e List.mem_cons_self _).withActive (at_first _) ?_
    intro v s' same
    have turnsThen : ∀ view vs, ctx.turn view active task (base ++ [v] ++ vs) =
        .along v es vs last := by
      intro view vs
      rw [List.append_assoc, List.singleton_append, turns, Turn.along_cons_cons]
    refine ih (fun u mem => each u (List.mem_cons_of_mem e mem)) turnsThen
      (fun u vs s'' kept => done u vs s'' (kept.trans same)) fun view => ?_
    have := turnsThen view []
    rwa [List.append_nil] at this

/-- What a path is before its last segment is a shorter path. -/
theorem evaluatePrefix_eq (current : Value) (segments : List Expr) :
    ctx.evaluatePrefix reenter current segments =
      ctx.evaluatePath reenter current segments.dropLast := by
  induction segments generalizing current with
  | nil => rfl
  | cons e es ih =>
    cases es with
    | nil => rfl
    | cons e' es' =>
      rw [evaluatePrefix, List.dropLast_cons_cons, evaluatePath]
      simp only [List.isEmpty_cons, Bool.false_eq_true, if_false, ih]

/-- A task that visits a row of operands before anything else goes on with their values. -/
theorem follows_of_row {object : Value} {operands : List Expr} {last : List Value → Turn}
    {first : EvalM σ (List Value)} {f : List Value → EvalM σ Value}
    (row : first.Follows (ctx.Row reenter object operands) s)
    (turns : ∀ view vs, ctx.turn view active task vs = .eachOf object operands vs (last vs))
    (done : ∀ vs (s' : EvalState σ), s'.active = s.active →
      (∀ view, ctx.turn view active task vs = last vs) →
      (f vs).Follows (ctx.Conducts reenter active task vs) s') :
    (first >>= f).Follows (ctx.Conducts reenter active task []) s := by
  refine row.bind (fun events x w holds => (holds.conducts [] turns).1 x rfl) ?_
  intro events vs w holds s' at_world same
  obtain ⟨at_last, others⟩ := (holds.conducts [] turns).2 vs rfl
  refine (done vs s' same at_last).mono fun later answer w' rest => ?_
  rw [at_world] at rest
  exact others later answer w' rest

end Turns

end Context

end HostExpr
