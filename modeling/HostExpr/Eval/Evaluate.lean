import HostExpr.Eval.Access
import HostExpr.Operation

/-!
Evaluation of expressions.

Operands are evaluated from left to right, an assignment's value before its target. Names without a
receiver are members of the active object: the root object at first, along a path the result of the
segment before, and the root object again within the arguments of a call.
-/

namespace HostExpr.Context

variable {σ : Type} [Host σ] (ctx : Context σ) (reenter : Reenter σ)

/-- The value of a variable; `root` and `this` are the root object and the active object. -/
def variableValue (name : String) : EvalM σ Value := do
  if name = "root" then return ctx.root
  else if name = "this" then EvalM.activeObject ctx.root
  else
    match ctx.bindings.find? name with
    | some value => return value
    | none => throw (.unboundVariable name)

/-- The result of a binary operator that evaluates both operands. -/
def strictBinary (view : View) (op : BinaryOperator) (l r : Value) : Except EvalError Value :=
  let ordered (test : Ordering → Bool) : Except EvalError Value :=
    (l.compare view op.symbol r).map fun order => .boolean (order.any test)
  match op with
  | .equal => .ok (.boolean (l.looselyEqual r))
  | .notEqual => .ok (.boolean !l.looselyEqual r)
  | .lessThan => ordered Ordering.isLT
  | .lessThanEqual => ordered Ordering.isLE
  | .greaterThan => ordered Ordering.isGT
  | .greaterThanEqual => ordered Ordering.isGE
  | .arithmetic op => l.arithmetic view op r
  | .and | .or => .error (l.operandsMismatch view op.symbol r)

def unaryResult (view : View) (op : UnaryOperator) (v : Value) : Except EvalError Value :=
  match op with
  | .not => (v.truth view op.symbol).map fun b => .boolean !b
  | .minus => v.negate view
  | .plus =>
    if v.isNumeric then .ok v else .error (.typeMismatch (.operand op.symbol (v.valueType view)))

def truthOf (operator : String) (v : Value) : EvalM σ Bool := do
  EvalM.ofExcept (v.truth (← EvalM.view) operator)

def notAProperty : Expr → NotAProperty
  | .literal .. => .literal
  | .variable _ _ name => .variable name
  | .call _ _ name _ => .call name
  | e => .expression e.span.first e.span.last

/-- The property at the end of a path, by node and name. -/
def lastProperty (segments : List Expr) : Except EvalError (NodeId × String) :=
  match segments.getLast? with
  | none => .error (.notAssignable .emptyPath)
  | some (.property node _ name) => .ok (node, name)
  | some e => .error (.notAssignable (notAProperty e))

mutual

def evaluate : Expr → EvalM σ Value
  | .literal _ _ value => return value.toValue
  | .variable _ _ name => ctx.variableValue name
  | .property node _ name => do
    let target ← EvalM.activeObject ctx.root
    ctx.readProperty reenter node name target
  | .call node _ name args => do
    let target ← EvalM.activeObject ctx.root
    let values ← EvalM.withActive ctx.root (evaluateEach args)
    ctx.callMethod reenter node name target values
  | .path _ _ segments => do
    let first ← EvalM.activeObject ctx.root
    evaluatePath first segments
  | .binary _ _ .and left right => do
    let l ← evaluate left
    if ← truthOf BinaryOperator.and.symbol l then
      let r ← evaluate right
      return .boolean (← truthOf BinaryOperator.and.symbol r)
    else return .boolean false
  | .binary _ _ .or left right => do
    let l ← evaluate left
    if ← truthOf BinaryOperator.or.symbol l then return .boolean true
    else
      let r ← evaluate right
      return .boolean (← truthOf BinaryOperator.or.symbol r)
  | .binary _ _ op left right => do
    let l ← evaluate left
    let r ← evaluate right
    EvalM.ofExcept (strictBinary (← EvalM.view) op l r)
  | .unary _ _ op operand => do
    let v ← evaluate operand
    EvalM.ofExcept (unaryResult (← EvalM.view) op v)
  | .ternary _ _ condition whenTrue whenFalse => do
    let test ← evaluate condition
    if ← truthOf "?:" test then evaluate whenTrue else evaluate whenFalse
  | .list _ _ items => return .list (← evaluateEach items)
  | .assign _ _ target value => do
    let v ← evaluate value
    assign target v
    return v

def evaluateEach : List Expr → EvalM σ (List Value)
  | [] => return []
  | e :: es => do
    let v ← evaluate e
    let vs ← evaluateEach es
    return v :: vs

def evaluatePath (current : Value) : List Expr → EvalM σ Value
  | [] => return current
  | segment :: rest => do
    let next ← EvalM.withActive current (evaluate segment)
    evaluatePath next rest

/-- The value of a path that starts from an object, but for its last segment. -/
def evaluatePrefix (current : Value) : List Expr → EvalM σ Value
  | [] => return current
  | segment :: rest =>
    if rest.isEmpty then return current
    else do
      let next ← EvalM.withActive current (evaluate segment)
      evaluatePrefix next rest

/-- Writes a value to what an expression names: a property, alone or at the end of a path. -/
def assign (target : Expr) (value : Value) : EvalM σ Unit :=
  match target with
  | .property node _ name => do
    let object ← EvalM.activeObject ctx.root
    ctx.writeProperty reenter node name object value
  | .path _ _ segments => do
    let (node, name) ← EvalM.ofExcept (lastProperty segments)
    let first ← EvalM.activeObject ctx.root
    let object ← evaluatePrefix first segments
    ctx.writeProperty reenter node name object value
  | e => throw (.notAssignable (notAProperty e))

end

end HostExpr.Context
