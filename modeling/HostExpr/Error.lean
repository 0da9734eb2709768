import HostExpr.Value

/-!
What can go wrong in an evaluation.

An `AccessError` is the failure of a resolver or of what it found, in the host's own words. An
`EvalError` is the failure of an evaluation; it wraps an access error together with the name of
the resolver that raised it, except that a wrong number of arguments keeps its own kind.
`message` gives the words and `causes` those of the chain of underlying failures.
-/

namespace HostExpr

/-- The failure of a resolver or of a member that it found. -/
inductive AccessError where
  /-- A failure in the host's words, with the words of its causes, the nearest first. -/
  | failed (message : String) (causes : List String)
  /-- A member of that name exists, but not for this number of arguments. -/
  | arityMismatch (name expected : String) (supplied : Nat)
  deriving DecidableEq

def arityMessage (subject expected : String) (supplied : Nat) : String :=
  subject ++ " expects " ++ expected ++ " argument(s) but " ++ Decimal.integerText supplied ++
    " were supplied"

namespace AccessError

def message : AccessError → String
  | .failed message _ => message
  | .arityMismatch name expected supplied => arityMessage ("'" ++ name ++ "'") expected supplied

/-- The words of its causes, the nearest first. -/
def causes : AccessError → List String
  | .failed _ causes => causes
  | .arityMismatch .. => []

end AccessError

/-- Why a value does not suit a type or an operator. -/
inductive Mismatch where
  /-- No value of one type becomes one of the other. -/
  | inconvertible (source target : ValueType)
  /-- This number would not survive the move to a narrower kind. -/
  | lossy (number : Number) (target : ValueType)
  /-- This text is not a text of the type. -/
  | unreadable (text : String) (target : ValueType)
  | operands (operator : String) (left right : ValueType)
  | operand (operator : String) (type : ValueType)
  /-- A converter answered with a value of another type than the requested one. -/
  | notExtractable (target : ValueType)
  deriving DecidableEq

def Mismatch.text : Mismatch → String
  | .inconvertible source target => "cannot convert " ++ source.text ++ " to " ++ target.text
  | .lossy number target => number.text .plain ++ " cannot be represented as " ++ target.text
  | .unreadable text target => "'" ++ text ++ "' cannot be converted to " ++ target.text
  | .operands operator left right =>
    "operator '" ++ operator ++ "' is not defined for " ++ left.text ++ " and " ++ right.text
  | .operand operator type => "operator '" ++ operator ++ "' is not defined for " ++ type.text
  | .notExtractable target => "result cannot be extracted as " ++ target.text

/-- What stands where an assignment needs a property. -/
inductive NotAProperty where
  | literal
  | variable (name : String)
  | call (name : String)
  /-- Any other expression, by its place in the source. -/
  | expression (first last : Nat)
  | emptyPath
  deriving DecidableEq

def NotAProperty.text : NotAProperty → String
  | .literal => "a literal"
  | .variable name => "variable '#" ++ name ++ "'"
  | .call name => "the result of " ++ name ++ "()"
  | .expression first last =>
    "the expression at " ++ Decimal.integerText first ++ ".." ++ Decimal.integerText last
  | .emptyPath => "empty path"

inductive EvalError where
  | unboundVariable (name : String)
  | unresolvedProperty (name : String) (target : ValueType)
  | unwritableProperty (name : String) (target : ValueType)
  | unresolvedMethod (name : String) (target : ValueType) (argTypes : List ValueType)
  /-- A resolver failed, or a member that it found. -/
  | resolverAccess (resolver : String) (source : AccessError)
  | typeMismatch (mismatch : Mismatch)
  | arityMismatch (name expected : String) (supplied : Nat)
  | divisionByZero
  | notAssignable (what : NotAProperty)
  deriving DecidableEq

namespace EvalError

def message : EvalError → String
  | .unboundVariable name =>
    "variable '#" ++ name ++ "' is not bound in the evaluation context"
  | .unresolvedProperty name target =>
    "property '" ++ name ++ "' cannot be found on " ++ target.text
  | .unwritableProperty name target =>
    "property '" ++ name ++ "' cannot be written on " ++ target.text
  | .unresolvedMethod name target argTypes =>
    "method " ++ name ++ "(" ++ ValueType.textList argTypes ++ ") cannot be found on " ++
      target.text
  | .resolverAccess resolver source => "resolver '" ++ resolver ++ "' failed: " ++ source.message
  | .typeMismatch mismatch => "type mismatch: " ++ mismatch.text
  | .arityMismatch name expected supplied =>
    arityMessage ("method '" ++ name ++ "'") expected supplied
  | .divisionByZero => "division by zero"
  | .notAssignable what => what.text ++ " is not assignable"

def causes : EvalError → List String
  | .resolverAccess _ source => source.message :: source.causes
  | _ => []

/-- The failure of an evaluation whose resolver failed. -/
def ofAccess (resolver : String) : AccessError → EvalError
  | .arityMismatch name expected supplied => .arityMismatch name expected supplied
  | error => .resolverAccess resolver error

end EvalError

def AccessError.causedBy (message : String) (cause : EvalError) : AccessError :=
  .failed message (cause.message :: cause.causes)

end HostExpr
