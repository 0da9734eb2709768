import HostExpr.Number
import HostExpr.Text.Quoted

/-!
The types that values have and that parameters and properties declare.

`any` is declared only; a value whose type cannot be told, an object in the middle of being
changed, also reports it. The empty list and a list of unlike elements have type `list any`.
-/

namespace HostExpr

/-- The type of a value, or the type that a parameter or property asks for. -/
inductive ValueType where
  | any
  | null
  | boolean
  | number (kind : NumericKind)
  | string
  | list (element : ValueType)
  /-- Objects of a host type, by its name. -/
  | object (name : String)
  deriving DecidableEq

namespace ValueType

instance : Inhabited ValueType := ⟨any⟩

abbrev int : ValueType := .number .int
abbrev long : ValueType := .number .long
abbrev float : ValueType := .number .float
abbrev double : ValueType := .number .double

def kindName : NumericKind → String
  | .int => "Int"
  | .long => "Long"
  | .float => "Float"
  | .double => "Double"

def listName : String := "List"

def text : ValueType → String
  | .any => "Any"
  | .null => "null"
  | .boolean => "Boolean"
  | .number k => kindName k
  | .string => "String"
  | .list e => listName ++ "<" ++ e.text ++ ">"
  | .object name => name

/-- How a type is written for inspection, where objects cannot be mistaken for other types. -/
def inspect : ValueType → String
  | .any => "Any"
  | .null => "Null"
  | .boolean => "Boolean"
  | .number k => kindName k
  | .string => "String"
  | .list e => listName ++ "(" ++ e.inspect ++ ")"
  | .object name => "Object(" ++ Text.quoted name ++ ")"

def kind? : ValueType → Option NumericKind
  | .number k => some k
  | _ => none

def isNumeric (t : ValueType) : Bool :=
  t.kind?.isSome

/-- Numbers and booleans: the types that `null` does not belong to. -/
def isPrimitive (t : ValueType) : Bool :=
  t.isNumeric || t = .boolean

def element? : ValueType → Option ValueType
  | .list e => some e
  | _ => none

def textList (ts : List ValueType) : String :=
  ", ".intercalate (ts.map text)

end ValueType

end HostExpr
