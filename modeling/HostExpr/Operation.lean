import HostExpr.Error

/-!
The operators on values: equality, order, arithmetic, sign and truth.

Equality is defined on all values, with numbers equal across kinds; order only on two numbers, two
strings or two booleans. A sum with a string on either side is the concatenation of the two texts.
-/

namespace HostExpr.Value

mutual

/-- Equality as the operator `==` sees it: numbers across kinds, lists element by element. -/
def looselyEqual : Value → Value → Bool
  | .list as, .list bs => looselyEqualAll as bs
  | .number a, .number b => a.equal b
  | a, b => a.strictlyEqual b

def looselyEqualAll : List Value → List Value → Bool
  | [], [] => true
  | a :: as, b :: bs => looselyEqual a b && looselyEqualAll as bs
  | _, _ => false

end

def operandsMismatch (view : View) (operator : String) (a b : Value) : EvalError :=
  .typeMismatch (.operands operator (a.valueType view) (b.valueType view))

/-- The order of two values; absent if one of them is a number without an order. -/
def compare (view : View) (operator : String) (a b : Value) : Except EvalError (Option Ordering) :=
  match a, b with
  | .string x, .string y => .ok (some (Ord.compare x y))
  | .boolean x, .boolean y => .ok (some (Ord.compare x y))
  | .number x, .number y => .ok (x.compare y)
  | a, b => .error (operandsMismatch view operator a b)

def calculate (view : View) (op : ArithmeticOperator) : Value → Value → Except EvalError Value
  | .number x, .number y =>
    match op.onNumbers x y with
    | some n => .ok (.number n)
    | none => .error .divisionByZero
  | a, b => .error (operandsMismatch view op.symbol a b)

/-- Whether an arithmetic operator joins texts here. -/
def concatenates (op : ArithmeticOperator) (a b : Value) : Bool :=
  op = .add && (a.string?.isSome || b.string?.isSome)

def arithmetic (view : View) (op : ArithmeticOperator) (a b : Value) : Except EvalError Value :=
  if concatenates op a b then .ok (.string (a.text view ++ b.text view))
  else calculate view op a b

def negate (view : View) : Value → Except EvalError Value
  | .number n => .ok (.number n.neg)
  | v => .error (.typeMismatch (.operand "-" (v.valueType view)))

/-- The truth value that an operator finds in a value; only booleans have one. -/
def truth (view : View) (operator : String) : Value → Except EvalError Bool
  | .boolean b => .ok b
  | v => .error (.typeMismatch (.operand operator (v.valueType view)))

end HostExpr.Value
