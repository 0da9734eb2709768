import HostExpr.Eval.State

/-!
Access to properties and methods through the chains of a context.

An access is a search followed by its performance. The search asks the resolvers in order, the one
remembered for this node and shape first, and remembers who accepted; whoever accepts performs the
access, and its failure is final.
-/

namespace HostExpr.Context

variable {σ : Type} [Host σ] (ctx : Context σ) (reenter : Reenter σ)

def askReader (target : Value) (property : String) (index : Nat) (r : PropertyResolver σ) :
    EvalM σ (Option Unit) := do
  let able ← EvalM.perform r.name (r.canRead (ctx.environment reenter) target property)
    (.canRead index r.name target property)
  return if able then some () else none

def askWriter (target : Value) (property : String) (index : Nat) (r : PropertyResolver σ) :
    EvalM σ (Option Unit) := do
  let able ← EvalM.perform r.name (r.canWrite (ctx.environment reenter) target property)
    (.canWrite index r.name target property)
  return if able then some () else none

def askMethod (target : Value) (method : String) (argTypes : List ValueType) (index : Nat)
    (r : MethodResolver σ) : EvalM σ (Option (Executor σ)) :=
  EvalM.perform r.name (r.resolve (ctx.environment reenter) target method argTypes) fun answer =>
    .resolve index r.name target method argTypes
      (answer.map fun found => found.map (·.signature))

def findReader (target : Value) (property : String) (hint : Option Nat) :
    EvalM σ (Option (Nat × PropertyResolver σ)) := do
  let found ← ctx.properties.search hint (ctx.askReader reenter target property)
  return found.map fun (i, r, _) => (i, r)

def findWriter (target : Value) (property : String) (hint : Option Nat) :
    EvalM σ (Option (Nat × PropertyResolver σ)) := do
  let found ← ctx.properties.search hint (ctx.askWriter reenter target property)
  return found.map fun (i, r, _) => (i, r)

/-- The first resolver that finds a method, and what it found. -/
def findMethod (target : Value) (method : String) (argTypes : List ValueType)
    (hint : Option Nat) : EvalM σ (Option (Nat × MethodResolver σ × Executor σ)) :=
  ctx.methods.search hint (ctx.askMethod reenter target method argTypes)

/-- Searches with the position that is remembered for an access, and remembers the one found. -/
def locate {β : Type} (key : CacheKey) (generation : Generation)
    (find : Option Nat → EvalM σ (Option (Nat × β))) : EvalM σ (Option (Nat × β)) := do
  let found ← find (← EvalM.hintFor key generation)
  match found with
  | some (i, _) => EvalM.remember key generation i
  | none => pure ()
  return found

def readProperty (node : NodeId) (property : String) (target : Value) : EvalM σ Value := do
  let key : CacheKey := ⟨node, .read, target.valueType (← EvalM.view), none⟩
  match ← locate key ctx.properties.generation (ctx.findReader reenter target property) with
  | none => throw (.unresolvedProperty property (target.valueType (← EvalM.view)))
  | some (i, r) =>
    EvalM.perform r.name (r.read (ctx.environment reenter) target property)
      (.read i r.name target property)

def writeProperty (node : NodeId) (property : String) (target value : Value) : EvalM σ Unit := do
  let key : CacheKey := ⟨node, .write, target.valueType (← EvalM.view), none⟩
  match ← locate key ctx.properties.generation (ctx.findWriter reenter target property) with
  | none => throw (.unwritableProperty property (target.valueType (← EvalM.view)))
  | some (i, r) =>
    EvalM.perform r.name (r.write (ctx.environment reenter) target property value)
      (.write i r.name target property value)

def prepareArguments (method : String) (signature : Option Signature) (args : List Value) :
    EvalM σ (List Value) := do
  match signature with
  | none => return args
  | some s => EvalM.ofExcept (ctx.converter.convertArguments (← EvalM.view) method s args)

def callMethod (node : NodeId) (method : String) (target : Value) (args : List Value) :
    EvalM σ Value := do
  let view ← EvalM.view
  let argTypes := args.map (Value.valueType view)
  let key : CacheKey := ⟨node, .call, target.valueType view, some argTypes⟩
  match ← locate key ctx.methods.generation (ctx.findMethod reenter target method argTypes) with
  | none => throw (.unresolvedMethod method (target.valueType (← EvalM.view)) argTypes)
  | some (i, r, executor) =>
    let prepared ← ctx.prepareArguments method executor.signature args
    EvalM.perform r.name (executor.execute (ctx.environment reenter) target prepared)
      (.execute i r.name target method executor.signature prepared)

end HostExpr.Context
