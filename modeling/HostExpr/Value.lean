import HostExpr.ValueType

/-!
Values, their types and their texts.

Objects belong to the host. A value holds only a reference; what can be said of the object at a
moment, its `ObjectFacts`, comes from a `View`. A view has no facts for an object that the host is
in the middle of changing: such an object has type `any`. Objects are equal when their references
are.
-/

namespace HostExpr

structure ObjectRef where
  key : Nat
  deriving DecidableEq

/-- What the host tells of an object that is not being changed. -/
structure ObjectFacts where
  typeName : String
  /-- Whether the object may stand where a type is expected. -/
  isInstanceOf : String → Bool
  /-- The object's own text. -/
  text : String

/-- What can be said of each object at a moment; nothing while the object is being changed. -/
abbrev View := ObjectRef → Option ObjectFacts

inductive Value where
  | null
  | boolean (b : Bool)
  | number (n : Number)
  | string (s : String)
  | list (items : List Value)
  | object (ref : ObjectRef)

namespace Value

instance : Inhabited Value := ⟨null⟩

abbrev int (i : Int32) : Value := .number (.int i)
abbrev long (i : Int64) : Value := .number (.long i)
abbrev float (x : Single) : Value := .number (.float x)
abbrev double (x : Double) : Value := .number (.double x)

def isNull : Value → Bool
  | .null => true
  | _ => false

def number? : Value → Option Number
  | .number n => some n
  | _ => none

def isNumeric (v : Value) : Bool :=
  v.number?.isSome

def boolean? : Value → Option Bool
  | .boolean b => some b
  | _ => none

def string? : Value → Option String
  | .string s => some s
  | _ => none

def list? : Value → Option (List Value)
  | .list items => some items
  | _ => none

/-! ### Types of values -/

/-- The type of elements of the given types: the one they share, or else `any`. -/
def commonType : List ValueType → ValueType
  | [] => .any
  | t :: ts => if ts.all (· = t) then t else .any

mutual

def valueType (view : View) : Value → ValueType
  | .null => .null
  | .boolean _ => .boolean
  | .number n => .number n.kind
  | .string _ => .string
  | .list items => .list (commonType (valueTypes view items))
  | .object ref => ((view ref).map fun o => .object o.typeName).getD .any

def valueTypes (view : View) : List Value → List ValueType
  | [] => []
  | v :: vs => valueType view v :: valueTypes view vs

end

/-- The types of some values are the type of each. -/
@[simp] theorem valueTypes_eq_map (view : View) (vs : List Value) :
    valueTypes view vs = vs.map (valueType view) := by
  induction vs with
  | nil => rfl
  | cons v vs ih => simp [valueTypes, ih]

/-- The name under which the members of a value are registered. All lists share one. -/
def typeName (view : View) : Value → String
  | .list _ => ValueType.listName
  | v => (v.valueType view).text

/-! ### Texts of values -/

mutual

/-- The text of a value, as concatenation and messages show it. -/
def text (view : View) : Value → String
  | .null => "null"
  | .boolean b => if b then "true" else "false"
  | .number n => n.text .plain
  | .string s => s
  | .list items => "[" ++ ", ".intercalate (texts view items) ++ "]"
  | .object ref => ((view ref).map (·.text)).getD "<borrowed object>"

def texts (view : View) : List Value → List String
  | [] => []
  | v :: vs => text view v :: texts view vs

end

mutual

/-- The text of a value for inspection, which shows its kind. -/
def inspect (view : View) : Value → String
  | .null => "Value::Null"
  | .boolean b => "Value::Boolean(" ++ (if b then "true" else "false") ++ ")"
  | .number n => "Value::" ++ ValueType.kindName n.kind ++ "(" ++ n.text .detailed ++ ")"
  | .string s => "Value::String(" ++ Text.quoted s ++ ")"
  | .list items => "Value::List([" ++ ", ".intercalate (inspections view items) ++ "])"
  | .object ref => "Value::Object(" ++ ((view ref).map (·.typeName)).getD "..." ++ ")"

def inspections (view : View) : List Value → List String
  | [] => []
  | v :: vs => inspect view v :: inspections view vs

end

/-! ### Strict equality -/

mutual

/-- Equality of values of one kind; numbers of different kinds differ. -/
def strictlyEqual : Value → Value → Bool
  | .null, .null => true
  | .boolean a, .boolean b => a = b
  | .number a, .number b => a.sameKindEqual b
  | .string a, .string b => a = b
  | .list as, .list bs => strictlyEqualAll as bs
  | .object a, .object b => a = b
  | _, _ => false

def strictlyEqualAll : List Value → List Value → Bool
  | [], [] => true
  | a :: as, b :: bs => strictlyEqual a b && strictlyEqualAll as bs
  | _, _ => false

end

end Value

end HostExpr
