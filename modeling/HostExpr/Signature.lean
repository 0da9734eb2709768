import HostExpr.ValueType

/-!
The parameters that a method declares: fixed ones and, for variable arity, the type of all further
arguments, which arrive collected into one list.
-/

namespace HostExpr

structure Signature where
  fixed : List ValueType
  /-- The type of the arguments after the fixed ones, if any number of them is accepted. -/
  rest : Option ValueType := none
  deriving DecidableEq

namespace Signature

/-- The parameters as the method receives them; collected arguments are one list. -/
def params (s : Signature) : List ValueType :=
  s.fixed ++ (s.rest.map .list).toList

def isVariadic (s : Signature) : Bool :=
  s.rest.isSome

def required (s : Signature) : Nat :=
  s.fixed.length

def accepts (s : Signature) (supplied : Nat) : Bool :=
  if s.isVariadic then s.required ≤ supplied else supplied = s.required

def arityText (s : Signature) : String :=
  if s.isVariadic then "at least " ++ Decimal.integerText s.required
  else Decimal.integerText s.required

end Signature

end HostExpr
