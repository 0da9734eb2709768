import HostExpr.Chain
import HostExpr.Registry.Reflective

/-!
Contexts: what expressions are evaluated in.

A context has a root object, variables, a converter, a chain of resolvers for properties and one
for methods. Installing a registry makes it the default of both chains and lets the converter know
its types.
-/

namespace HostExpr

structure Context (σ : Type) extends Scope where
  properties : Chain (PropertyResolver σ)
  methods : Chain (MethodResolver σ)

namespace Context

variable {σ : Type}

/-- A context without resolvers, whose root object is `null`. -/
def new (config : Config) : Fresh (Context σ) := do
  return {
    config
    converter := StandardConverter.toConverter { narrowing := config.narrowing }
    properties := ← Chain.new
    methods := ← Chain.new }

/-- What the resolvers of the context see of an evaluation. -/
def environment (ctx : Context σ) (reenter : Reenter σ) : Environment σ :=
  { ctx.toScope with reenter }

def setRoot (ctx : Context σ) (root : Value) : Context σ :=
  { ctx with root }

def setVariable (ctx : Context σ) (name : String) (value : Value) : Context σ :=
  { ctx with bindings := ctx.bindings.insert name value }

/-- Removes a variable and gives its value, if it had one. -/
def removeVariable (ctx : Context σ) (name : String) : Option Value × Context σ :=
  (ctx.bindings.find? name, { ctx with bindings := ctx.bindings.erase name })

def setConverter (ctx : Context σ) (converter : TypeConverter) : Context σ :=
  { ctx with converter }

def updateProperties (ctx : Context σ)
    (change : Chain (PropertyResolver σ) → Fresh (Chain (PropertyResolver σ))) :
    Fresh (Context σ) := do
  return { ctx with properties := ← change ctx.properties }

def updateMethods (ctx : Context σ)
    (change : Chain (MethodResolver σ) → Fresh (Chain (MethodResolver σ))) :
    Fresh (Context σ) := do
  return { ctx with methods := ← change ctx.methods }

/-- Removes the first property resolver of a name and gives it. -/
def removePropertyResolver (ctx : Context σ) (name : String) :
    Fresh (Option (PropertyResolver σ) × Context σ) := do
  let (removed, properties) ← ctx.properties.removeFirst (·.name = name)
  return (removed, { ctx with properties })

def removeMethodResolver (ctx : Context σ) (name : String) :
    Fresh (Option (MethodResolver σ) × Context σ) := do
  let (removed, methods) ← ctx.methods.removeFirst (·.name = name)
  return (removed, { ctx with methods })

/-- Makes the members of a registry the last to be found, and its types known to the converter. -/
def installRegistry [Host σ] (ctx : Context σ) (registry : TypeRegistry σ) :
    Fresh (Context σ) := do
  let converter : StandardConverter :=
    { narrowing := ctx.config.narrowing, hierarchy := some registry.hierarchy }
  return { ctx with
    properties := ← ctx.properties.setDefault (some registry.propertyResolver)
    methods := ← ctx.methods.setDefault (some registry.methodResolver)
    converter := converter.toConverter }

end Context

end HostExpr
