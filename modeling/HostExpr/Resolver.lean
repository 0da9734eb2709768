import HostExpr.Conversion
import HostExpr.Expr.Tree
import HostExpr.Signature

/-!
What a host supplies: its objects, and resolvers for properties and methods.

The host has a state of some type `σ`, of which the language knows only how its objects look
(`Host.view`). A resolver is asked whether it can answer an access, and then to perform it; each
question may read and change the host's state and may fail. It sees the `Environment` of the
evaluation, in which it can evaluate further expressions.
-/

namespace HostExpr

/-- A type of host states, in each of which objects can be looked at. -/
class Host (σ : Type) where
  view : σ → View

/-- A host without objects and without a state. -/
instance : Host Unit := ⟨fun _ _ => none⟩

/-- A computation of the host. What it changed before it failed stays changed. -/
abbrev HostM (σ : Type) := ExceptT AccessError (StateM σ)

/-- How the host's objects look at this moment. -/
def HostM.view {σ : Type} [Host σ] : HostM σ View := do
  return Host.view (← get)

/-- What an evaluation knows apart from its resolvers. -/
structure Scope where
  root : Value := .null
  /-- The values of the variables that have one. -/
  bindings : Table String Value := .empty
  converter : TypeConverter
  config : Config := {}

/-- An evaluation that starts afresh in the same context. -/
abbrev Reenter (σ : Type) := Expr → StateM σ (Except EvalError Value)

/-- What a resolver sees of the evaluation that asks it. -/
structure Environment (σ : Type) extends Scope where
  reenter : Reenter σ

/-- A resolver of properties. By default it writes none. -/
structure PropertyResolver (σ : Type) where
  name : String
  canRead : Environment σ → Value → String → HostM σ Bool
  read : Environment σ → Value → String → HostM σ Value
  canWrite : Environment σ → Value → String → HostM σ Bool := fun _ _ _ => pure false
  write : Environment σ → Value → String → Value → HostM σ Unit := fun _ _ property _ =>
    throw (.failed ("property '" ++ property ++ "' is read-only") [])

/-- A method that was found and can be executed. Without a signature it takes the arguments as they
were evaluated. -/
structure Executor (σ : Type) where
  signature : Option Signature
  execute : Environment σ → Value → List Value → HostM σ Value

structure MethodResolver (σ : Type) where
  name : String
  resolve : Environment σ → Value → String → List ValueType → HostM σ (Option (Executor σ))

end HostExpr
