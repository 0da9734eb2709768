import HostExpr.Operation
import HostExpr.Registry.Basic
import HostExpr.Text.LetterCase

/-!
The methods of strings and lists, described as those of host types are.
-/

namespace HostExpr.Core

variable {σ : Type} [Host σ]

def onString (target : Value) (run : String → Value) : HostM σ Value := do
  match target with
  | .string s => return run s
  | _ => throw (.failed (target.typeName (← HostM.view) ++ " is not a String") [])

def onList (target : Value) (run : List Value → Except AccessError Value) : HostM σ Value := do
  match target with
  | .list items =>
    match run items with
    | .ok value => return value
    | .error failure => throw failure
  | _ => throw (.failed (target.typeName (← HostM.view) ++ " is not a List") [])

def occursIn (needle : List Char) : List Char → Bool
  | [] => needle.isEmpty
  | c :: cs => needle.isPrefixOf (c :: cs) || occursIn needle cs

/-- Whether a test holds of a text and of the first argument; nothing holds of `null`. -/
def testArgument (test : List Char → List Char → Bool) (args : List Value) (s : String) : Value :=
  .boolean ((args.head?.bind Value.string?).any fun arg => test arg.toList s.toList)

def string : TypeDescriptor σ :=
  let none : Signature := { fixed := [] }
  let one : Signature := { fixed := [.string] }
  ({ name := "String" } : TypeDescriptor σ)
    |>.addMethod "length" none (fun _ target _ =>
      onString target fun s => .int (.ofNat s.length))
    |>.addMethod "isEmpty" none (fun _ target _ => onString target fun s => .boolean s.isEmpty)
    |>.addMethod "toUpperCase" none (fun _ target _ =>
      onString target fun s => .string (Text.toUpper s))
    |>.addMethod "toLowerCase" none (fun _ target _ =>
      onString target fun s => .string (Text.toLower s))
    |>.addMethod "startsWith" one (fun _ target args =>
      onString target (testArgument List.isPrefixOf args))
    |>.addMethod "contains" one (fun _ target args =>
      onString target (testArgument occursIn args))

def elementAt (args items : List Value) : Except AccessError Value :=
  match args.head? with
  | some (.number (.int i)) =>
    if i < 0 then outOfBounds i
    else
      match items[i.toInt.toNat]? with
      | some item => .ok item
      | none => outOfBounds i
  | _ => .error (.failed "list index must be an Int" [])
where
  outOfBounds (i : Int32) : Except AccessError Value :=
    .error (.failed ("index " ++ Decimal.integerText i.toInt ++
      " out of bounds for list of size " ++ Decimal.integerText items.length) [])

/-- The methods of lists. Membership is by the equality of the operator `==`. -/
def list : TypeDescriptor σ :=
  ({ name := ValueType.listName } : TypeDescriptor σ)
    |>.addMethod "size" { fixed := [] } (fun _ target _ =>
      onList target fun items => .ok (.int (.ofNat items.length)))
    |>.addMethod "isEmpty" { fixed := [] } (fun _ target _ =>
      onList target fun items => .ok (.boolean items.isEmpty))
    |>.addMethod "contains" { fixed := [.any] } (fun _ target args =>
      onList target fun items =>
        .ok (.boolean (items.any fun item => item.looselyEqual (args.head?.getD .null))))
    |>.addMethod "get" { fixed := [.int] } (fun _ target args =>
      onList target (elementAt args))

def registry : TypeRegistry σ :=
  ((({} : TypeRegistry σ).register string).register list)

end HostExpr.Core
