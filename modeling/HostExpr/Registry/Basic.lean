import HostExpr.Registry.Descriptor

/-!
Registered types, and the members that a type declares or inherits.

A property is found on the nearest type of the lineage that declares it. Of the overloads of a
method, all along the lineage are visible, the nearest first, but those whose signature was
declared before.
-/

namespace HostExpr

structure TypeRegistry (σ : Type) where
  types : Table String (TypeDescriptor σ) := .empty

namespace TypeRegistry

variable {σ : Type}

/-- Registers a type, in place of one of the same name. -/
def register (r : TypeRegistry σ) (d : TypeDescriptor σ) : TypeRegistry σ :=
  ⟨r.types.insert d.name d⟩

def find? (r : TypeRegistry σ) (name : String) : Option (TypeDescriptor σ) :=
  r.types.find? name

/-- Changes the description of a type, if it is registered. The type stays where it is, whatever
name it bears then. -/
def modify (r : TypeRegistry σ) (name : String) (change : TypeDescriptor σ → TypeDescriptor σ) :
    TypeRegistry σ :=
  match r.find? name with
  | some d => ⟨r.types.insert name (change d)⟩
  | none => r

def setParent (r : TypeRegistry σ) (name : String) (parent : Option String) : TypeRegistry σ :=
  r.modify name fun d => { d with parent }

/-- The registered types without their members. -/
def hierarchy (r : TypeRegistry σ) : Hierarchy :=
  r.types.map fun d => ⟨d.name, d.parent⟩

def typeNames (r : TypeRegistry σ) : List String :=
  r.types.keys.mergeSort fun a b => decide (a ≤ b)

/-- The descriptions of a type and its ancestors, the nearest first. -/
def lineage (r : TypeRegistry σ) (name : String) : List (TypeDescriptor σ) :=
  (r.hierarchy.lineage name).filterMap r.find?

/-- Whether a type is another one, or that is the name of one in its lineage. -/
def isSubtype (r : TypeRegistry σ) (sub sup : String) : Bool :=
  r.hierarchy.isSubtype sub sup

/-- A property that a type declares or inherits. -/
def findProperty (r : TypeRegistry σ) (typeName property : String) : Option (PropertyDef σ) :=
  (r.lineage typeName).findSome? (·.properties.find? property)

/-- The overloads without those that repeat the signature of an earlier one. -/
def distinctSignatures : List (MethodDef σ) → List (MethodDef σ)
  | [] => []
  | m :: ms => m :: (distinctSignatures ms).filter fun n => n.signature ≠ m.signature

/-- The overloads of a method that are visible on a type, the nearest first. -/
def findMethods (r : TypeRegistry σ) (typeName method : String) : List (MethodDef σ) :=
  distinctSignatures
    ((r.lineage typeName).flatMap fun d => (d.methods.find? method).getD [])

end TypeRegistry

end HostExpr
