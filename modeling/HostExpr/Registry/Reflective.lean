import HostExpr.Arguments
import HostExpr.Registry.Basic

/-!
The resolver that finds members in a registry, by the name of the target's type.

Of the visible overloads of a method it chooses one that fits best: one whose parameters are the
argument types, else one with fixed parameters that the arguments convert to, else a variadic one;
of several that fit alike, the first. If no visible overload takes the number of arguments, the
call fails; if one does but none fits, the resolver declines.
-/

namespace HostExpr

/-- How well an overload fits, the best first. -/
inductive Fit where
  | exact
  | convertible
  | variadic
  deriving DecidableEq

def Fit.rank : Fit → Nat
  | .exact => 0
  | .convertible => 1
  | .variadic => 2

namespace Fit

def accepts (c : TypeConverter) (arg param : ValueType) : Bool :=
  arg = param || c.canConvert arg param

/-- Whether arguments in the variable position may be passed: as the collected list, or one by
one. -/
def acceptsRest (c : TypeConverter) (element : ValueType) (tail : List ValueType) : Bool :=
  (match tail with
    | [single] => c.isCollectedSequence single (.list element)
    | _ => false) ||
  tail.all fun arg => accepts c arg element

def of (c : TypeConverter) (s : Signature) (argTypes : List ValueType) : Option Fit :=
  let pairs := argTypes.zip s.fixed
  if s.accepts argTypes.length && pairs.all fun p => accepts c p.1 p.2 then
    match s.rest with
    | none => some (if pairs.all fun p => p.1 = p.2 then .exact else .convertible)
    | some element =>
      if acceptsRest c element (argTypes.drop s.required) then some .variadic else none
  else none

end Fit

namespace TypeRegistry

variable {σ : Type}

/-- The first of the candidates that fit best, with its fit. -/
def best? (c : TypeConverter) (argTypes : List ValueType) :
    List (MethodDef σ) → Option (Fit × MethodDef σ)
  | [] => none
  | m :: ms =>
    match Fit.of c m.signature argTypes, best? c argTypes ms with
    | none, later => later
    | some fit, none => some (fit, m)
    | some fit, some (other, n) => if fit.rank ≤ other.rank then some (fit, m) else some (other, n)

/-- The texts without those that repeat the one before. -/
def withoutRepeats : List String → List String
  | a :: b :: rest => if a = b then withoutRepeats (b :: rest) else a :: withoutRepeats (b :: rest)
  | texts => texts

/-- The failure of a call that no candidate takes so many arguments for. -/
def arityFailure (method : String) (candidates : List (MethodDef σ)) (supplied : Nat) :
    AccessError :=
  let arities := withoutRepeats (candidates.map (·.signature.arityText))
  .arityMismatch method (" or ".intercalate arities) supplied

def select (r : TypeRegistry σ) (c : TypeConverter) (typeName method : String)
    (argTypes : List ValueType) : Except AccessError (Option (MethodDef σ)) :=
  let candidates := r.findMethods typeName method
  match best? c argTypes candidates with
  | some (_, m) => .ok (some m)
  | none =>
    if candidates.isEmpty || candidates.any (·.signature.accepts argTypes.length) then .ok none
    else .error (arityFailure method candidates argTypes.length)

def resolverName : String := "reflective"

variable [Host σ]

/-- The property of a target, if it is not `null`. -/
def propertyOf? (r : TypeRegistry σ) (target : Value) (name : String) :
    HostM σ (Option (PropertyDef σ)) := do
  if target.isNull then return none
  return r.findProperty (target.typeName (← HostM.view)) name

def propertyOf (r : TypeRegistry σ) (target : Value) (name : String) : HostM σ (PropertyDef σ) := do
  let typeName := target.typeName (← HostM.view)
  match r.findProperty typeName name with
  | some property => return property
  | none => throw (.failed (typeName ++ " has no property '" ++ name ++ "'") [])

/-- Writes a property after converting the value to its type. -/
def writeProperty (r : TypeRegistry σ) (env : Environment σ) (target : Value) (name : String)
    (value : Value) : HostM σ Unit := do
  let property ← r.propertyOf target name
  match property.set with
  | none => throw (.failed ("property '" ++ name ++ "' is read-only") [])
  | some set =>
    match env.converter.convert (← HostM.view) value property.valueType with
    | .ok converted => set target converted
    | .error failure => throw (.causedBy ("cannot assign '" ++ name ++ "'") failure)

def propertyResolver (r : TypeRegistry σ) : PropertyResolver σ where
  name := resolverName
  canRead _ target name := do return (← r.propertyOf? target name).isSome
  read _ target name := do (← r.propertyOf target name).get target
  canWrite _ target name := do return ((← r.propertyOf? target name).bind (·.set)).isSome
  write := r.writeProperty

def methodResolver (r : TypeRegistry σ) : MethodResolver σ where
  name := resolverName
  resolve env target name argTypes := do
    if target.isNull then return none
    match r.select env.converter (target.typeName (← HostM.view)) name argTypes with
    | .ok selected =>
      return selected.map fun m => { signature := some m.signature, execute := m.run }
    | .error failure => throw failure

end TypeRegistry

end HostExpr
