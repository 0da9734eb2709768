import HostExpr.Conversion
import HostExpr.Signature

/-!
Arguments brought to the shape that a signature declares.

Each argument is converted to its parameter. Arguments beyond the fixed ones are converted to the
declared element type and collected into one list, unless the only one of them is that list
already.
-/

namespace HostExpr

namespace TypeConverter

/-- Whether the only argument in the variable position is the collected list itself: it is `null`,
or a list that converts to the collected type. -/
def isCollectedSequence (c : TypeConverter) (arg sequence : ValueType) : Bool :=
  match arg with
  | .null => true
  | .list _ => c.canConvert arg sequence
  | _ => false

/-- Converts each value to the type beside it, up to the first failure. -/
def convertEach (c : TypeConverter) (view : View) (pairs : List (Value × ValueType)) :
    Except EvalError (List Value) :=
  pairs.mapM fun p => c.convert view p.1 p.2

/-- The arguments in the variable position as one value. -/
def collect (c : TypeConverter) (view : View) (tail : List Value) (element : ValueType) :
    Except EvalError Value :=
  let each := (c.convertEach view (tail.map (·, element))).map .list
  match tail with
  | [arg] =>
    if c.isCollectedSequence (arg.valueType view) (.list element) then
      c.convert view arg (.list element)
    else each
  | _ => each

/-- The arguments of a call as the method receives them. -/
def convertArguments (c : TypeConverter) (view : View) (method : String) (s : Signature)
    (args : List Value) : Except EvalError (List Value) :=
  if s.accepts args.length then do
    let fixed ← c.convertEach view (args.zip s.fixed)
    match s.rest with
    | none => return fixed
    | some element =>
      let collected ← c.collect view (args.drop s.required) element
      return fixed ++ [collected]
  else .error (.arityMismatch method s.arityText args.length)

end TypeConverter

end HostExpr
