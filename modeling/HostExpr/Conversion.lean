import HostExpr.Config
import HostExpr.Error
import HostExpr.Hierarchy
import HostExpr.Text.Blank

/-!
Conversion of values to types.

A `TypeConverter` answers on types (`canConvert`) and on values (`convert`). `StandardConverter`
widens numbers freely and narrows them as its policy allows, writes numbers and booleans as texts
and reads them back, converts lists element by element, gives `null` to every type that is not
primitive, and lets an object stand for a type that it is an instance of or whose registered
subtype it has.
-/

namespace HostExpr

/-- The service that converts values. It goes by types, or by a value and what the host shows of its
objects, and by nothing else. So it stands for converters without side effects only: one that keeps
a state of its own, or changes the host, cannot be given here. -/
structure TypeConverter where
  /-- Whether values of the first type may become values of the second. -/
  canConvert : ValueType → ValueType → Bool
  convert : View → Value → ValueType → Except EvalError Value

def EvalError.inconvertible (source target : ValueType) : EvalError :=
  .typeMismatch (.inconvertible source target)

/-- The standard converter: a narrowing policy and, if objects may stand for their ancestors, the
types that are registered. -/
structure StandardConverter where
  narrowing : Narrowing := .lossless
  hierarchy : Option Hierarchy := none

namespace StandardConverter

/-- Whether objects of one type may stand for another. -/
def isSubtype (c : StandardConverter) (sub sup : String) : Bool :=
  sub = sup || c.hierarchy.any fun h => h.isSubtype sub sup

def canConvert (c : StandardConverter) (source target : ValueType) : Bool :=
  target = .any || source = target ||
    match source, target with
    | .null, t => !t.isPrimitive
    | .number a, .number b => a.rank ≤ b.rank || c.narrowing ≠ .never
    | s, .string => s.isPrimitive
    | .string, t => t.isPrimitive
    | .list a, .list b => c.canConvert a b
    | .object sub, .object sup => c.isSubtype sub sup
    | _, _ => false

/-- Whether a number comes back unchanged from another kind; `nan` may stay `nan`. -/
def survives (n converted : Number) : Bool :=
  (converted.cast n.kind).sameKindEqual n || n.isNan && converted.isNan

/-- Moves a number to a kind, down the order of kinds only as the policy allows. -/
def convertNumber (c : StandardConverter) (n : Number) (k : NumericKind) :
    Except EvalError Value :=
  let converted := n.cast k
  if n.kind.rank ≤ k.rank then .ok (.number converted)
  else
    match c.narrowing with
    | .truncating => .ok (.number converted)
    | .never => .error (.inconvertible (.number n.kind) (.number k))
    | .lossless =>
      if survives n converted then .ok (.number converted)
      else .error (.typeMismatch (.lossy n (.number k)))

/-- The boolean that a text names, in any letter case. -/
def readBoolean (cs : List Char) : Option Bool :=
  let name := cs.map Char.toLower
  if name = "true".toList then some true
  else if name = "false".toList then some false
  else none

/-- Reads a text, but for white space at its ends, as a value of a primitive type. -/
def readText (s : String) (target : ValueType) : Except EvalError Value :=
  let cs := Text.trim s.toList
  let value :=
    match target with
    | .number k => (Number.read k cs).map .number
    | .boolean => (readBoolean cs).map .boolean
    | _ => none
  match value with
  | some v => .ok v
  | none => .error (.typeMismatch (.unreadable s target))

/-- Whether an object may stand for a type: it says so itself, or its type is a subtype. -/
def accepts (c : StandardConverter) (o : ObjectFacts) (name : String) : Bool :=
  o.isInstanceOf name || c.isSubtype o.typeName name

mutual

def convert (c : StandardConverter) (view : View) (v : Value) (target : ValueType) :
    Except EvalError Value :=
  if target = .any ∨ v.valueType view = target then .ok v
  else
    match v, target with
    | .null, t => if t.isPrimitive then .error (.inconvertible .null t) else .ok .null
    | .number n, .number k => c.convertNumber n k
    | .number n, .string => .ok (.string (n.text .plain))
    | .boolean b, .string => .ok (.string (if b then "true" else "false"))
    | .string s, t =>
      if t.isPrimitive then readText s t else .error (.inconvertible .string t)
    | .list items, .list element => (c.convertAll view items element).map .list
    | .object ref, .object name =>
      if (view ref).any fun o => c.accepts o name then .ok (.object ref)
      else .error (.inconvertible ((Value.object ref).valueType view) (.object name))
    | v, t => .error (.inconvertible (v.valueType view) t)

/-- Converts values to one type, up to the first failure. -/
def convertAll (c : StandardConverter) (view : View) (items : List Value) (element : ValueType) :
    Except EvalError (List Value) :=
  match items with
  | [] => .ok []
  | v :: vs => do
    let w ← c.convert view v element
    let ws ← c.convertAll view vs element
    return w :: ws

end

def toConverter (c : StandardConverter) : TypeConverter where
  canConvert := c.canConvert
  convert := c.convert

/-- The text of the converter for inspection, with the registered names in order. -/
def inspect (c : StandardConverter) : String :=
  let registry :=
    match c.hierarchy with
    | none => "None"
    | some h =>
      let names := (h.keys.mergeSort fun a b => decide (a ≤ b)).map Text.quoted
      "Some([" ++ ", ".intercalate names ++ "])"
  "StandardTypeConverter \x7b narrowing: " ++ c.narrowing.inspect ++ ", registry: " ++ registry ++
    " \x7d"

end StandardConverter

end HostExpr
