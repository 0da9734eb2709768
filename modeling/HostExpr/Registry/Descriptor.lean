import HostExpr.Resolver

/-!
Descriptions of types: their properties and methods, and the parent from which they inherit.

Members of host objects are reached through a `Facet`, which says how objects of one kind are read
and written. A facet does not reach an object of another kind, nor one that is being changed.
-/

namespace HostExpr

structure PropertyDef (σ : Type) where
  valueType : ValueType
  get : Value → HostM σ Value
  set : Option (Value → Value → HostM σ Unit) := none

structure MethodDef (σ : Type) where
  signature : Signature
  run : Environment σ → Value → List Value → HostM σ Value

structure TypeDescriptor (σ : Type) where
  name : String
  /-- The type whose members are found where this one has none. -/
  parent : Option String := none
  properties : Table String (PropertyDef σ) := .empty
  /-- The overloads of each method in the order in which they were added. -/
  methods : Table String (List (MethodDef σ)) := .empty

/-- How host objects of one kind are read and written. -/
structure Facet (σ τ : Type) where
  read : σ → ObjectRef → Option τ
  write : σ → ObjectRef → τ → σ

namespace Facet

variable {σ τ : Type}

def show? (facet : Facet σ τ) (state : σ) : Value → Option τ
  | .object ref => facet.read state ref
  | _ => none

end Facet

namespace TypeDescriptor

variable {σ τ : Type}

def withParent (d : TypeDescriptor σ) (parent : String) : TypeDescriptor σ :=
  { d with parent := some parent }

/-- Adds a property, in place of one of the same name. -/
def addPropertyDef (d : TypeDescriptor σ) (name : String) (property : PropertyDef σ) :
    TypeDescriptor σ :=
  { d with properties := d.properties.insert name property }

/-- Adds a property that is computed from the target and cannot be written. -/
def addProperty (d : TypeDescriptor σ) (name : String) (valueType : ValueType)
    (get : Value → HostM σ Value) : TypeDescriptor σ :=
  d.addPropertyDef name { valueType, get }

def addMethod (d : TypeDescriptor σ) (name : String) (signature : Signature)
    (run : Environment σ → Value → List Value → HostM σ Value) : TypeDescriptor σ :=
  let overloads := (d.methods.find? name).getD []
  { d with methods := d.methods.insert name (overloads ++ [{ signature, run }]) }

variable [Host σ]

/-- The failure of a member of one type on a value that is not of it. -/
def notAnInstance {α : Type} (typeName : String) (target : Value) : HostM σ α := do
  let view ← HostM.view
  throw (.failed (target.typeName view ++ " is not an instance of " ++ typeName) [])

def inspectTarget (facet : Facet σ τ) (typeName : String) (target : Value) : HostM σ τ := do
  match facet.show? (← get) target with
  | some seen => return seen
  | none => notAnInstance typeName target

def addField (d : TypeDescriptor σ) (facet : Facet σ τ) (name : String) (valueType : ValueType)
    (get : τ → Value) : TypeDescriptor σ :=
  d.addProperty name valueType fun target => do
    return get (← inspectTarget facet d.name target)

/-- Adds a property of host objects. What is written was converted to its type before. -/
def addMutableField (d : TypeDescriptor σ) (facet : Facet σ τ) (name : String)
    (valueType : ValueType) (get : τ → Value) (set : τ → Value → Except AccessError τ) :
    TypeDescriptor σ :=
  d.addPropertyDef name {
    valueType
    get := fun target => do return get (← inspectTarget facet d.name target)
    set := some fun target value => do
      match target, facet.show? (← MonadState.get) target with
      | .object ref, some seen =>
        match set seen value with
        | .ok changed => modify fun state => facet.write state ref changed
        | .error failure => throw failure
      | _, _ => notAnInstance d.name target }

def addObjectMethod (d : TypeDescriptor σ) (facet : Facet σ τ) (name : String)
    (signature : Signature) (run : τ → List Value → Except AccessError Value) :
    TypeDescriptor σ :=
  d.addMethod name signature fun _ target args => do
    match run (← inspectTarget facet d.name target) args with
    | .ok value => return value
    | .error failure => throw failure

end TypeDescriptor

end HostExpr
