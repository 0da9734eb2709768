import HostExpr.Context
import HostExpr.ResolutionCache

/-!
The state of an evaluation.

An evaluation carries the host's state, the stack of active objects, the cache it may use, and the
trail of its interactions with resolvers, each with the host's state in which it began. The trail
only grows; nothing in the evaluation depends on it. What happened before a failure stays in the
state.
-/

namespace HostExpr

/-- A question put to a resolver, or an access performed by it, with the answer. `index` is the
position of the resolver in its chain. -/
inductive Interaction where
  | canRead (index : Nat) (resolver : String) (target : Value) (property : String)
      (answer : Except AccessError Bool)
  | read (index : Nat) (resolver : String) (target : Value) (property : String)
      (answer : Except AccessError Value)
  | canWrite (index : Nat) (resolver : String) (target : Value) (property : String)
      (answer : Except AccessError Bool)
  | write (index : Nat) (resolver : String) (target : Value) (property : String) (value : Value)
      (answer : Except AccessError Unit)
  /-- The answer is what is known of the executor that was found: its signature. -/
  | resolve (index : Nat) (resolver : String) (target : Value) (method : String)
      (argTypes : List ValueType) (answer : Except AccessError (Option (Option Signature)))
  | execute (index : Nat) (resolver : String) (target : Value) (method : String)
      (signature : Option Signature) (args : List Value) (answer : Except AccessError Value)

/-- An interaction, with the host's state in which it began. -/
structure Event (σ : Type) where
  before : σ
  interaction : Interaction

structure EvalState (σ : Type) where
  world : σ
  /-- The active objects, the current one first. -/
  active : List Value
  /-- What may be remembered, if anything. -/
  cache : Option ResolutionCache
  /-- The interactions so far, the last one first. -/
  trail : List (Event σ) := []

abbrev EvalM (σ : Type) := ExceptT EvalError (StateM (EvalState σ))

namespace EvalM

variable {σ α : Type}

def view [Host σ] : EvalM σ View := do
  return Host.view (← get).world

def ofExcept (e : Except EvalError α) : EvalM σ α :=
  match e with
  | .ok a => pure a
  | .error failure => throw failure

/-- Lets a resolver act, and notes the interaction. A failure is wrapped with its name. -/
def perform (resolver : String) (act : HostM σ α) (note : Except AccessError α → Interaction) :
    EvalM σ α := fun state =>
  let (answer, world) := act.run.run state.world
  (answer.mapError (EvalError.ofAccess resolver),
    { state with world, trail := ⟨state.world, note answer⟩ :: state.trail })

/-- The active object; without any it is the root object. -/
def activeObject (root : Value) : EvalM σ Value := do
  return (← get).active.head?.getD root

/-- Runs a computation with an active object of its own, which is taken away again however the
computation ends. -/
def withActive (object : Value) (act : EvalM σ α) : EvalM σ α := fun state =>
  let (result, after) := act.run.run { state with active := object :: state.active }
  (result, { after with active := after.active.tail })

/-- The position that answered an access before, if it may be remembered. -/
def hintFor (key : CacheKey) (generation : Generation) : EvalM σ (Option Nat) := do
  return (← get).cache.bind fun cache => cache.lookup key generation

def remember (key : CacheKey) (generation : Generation) (index : Nat) : EvalM σ Unit :=
  modify fun state =>
    { state with cache := state.cache.map fun cache => cache.record key generation index }

end EvalM

end HostExpr
