import HostExpr.Eval.Compiled

/-!
Runs of a host that owns one compiled expression and any number of contexts.

A `Session` is what the host owns; an `Action` is one step of it. The host opens contexts and
changes them, changes its own objects, moves a copy of a chain from one context to another, makes
the expression forget, and evaluates it or assigns through it in any context. A step that evaluates
or assigns is reported with its result and with the reads, writes and executions that it performed.
-/

namespace HostExpr

/-! ### Changes of contexts -/

inductive ChainEdit (ρ : Type) where
  | add (r : ρ)
  | addFirst (r : ρ)
  /-- Removes the first resolver of the host that passes a test. -/
  | remove (test : ρ → Bool)
  | setDefault (r : Option ρ)
  | replaceAll (members : List ρ)

def ChainEdit.apply {ρ : Type} (edit : ChainEdit ρ) (c : Chain ρ) : Fresh (Chain ρ) :=
  match edit with
  | .add r => c.add r
  | .addFirst r => c.addFirst r
  | .remove test => (·.2) <$> c.removeFirst test
  | .setDefault r => c.setDefault r
  | .replaceAll members => c.replaceAll members

inductive ContextEdit (σ : Type) where
  | setRoot (root : Value)
  | setVariable (name : String) (value : Value)
  | removeVariable (name : String)
  | setConverter (converter : TypeConverter)
  | installRegistry (registry : TypeRegistry σ)
  | properties (edit : ChainEdit (PropertyResolver σ))
  | methods (edit : ChainEdit (MethodResolver σ))

def ContextEdit.apply {σ : Type} [Host σ] (edit : ContextEdit σ) (ctx : Context σ) :
    Fresh (Context σ) :=
  match edit with
  | .setRoot root => pure (ctx.setRoot root)
  | .setVariable name value => pure (ctx.setVariable name value)
  | .removeVariable name => pure (ctx.removeVariable name).2
  | .setConverter converter => pure (ctx.setConverter converter)
  | .installRegistry registry => ctx.installRegistry registry
  | .properties edit => ctx.updateProperties edit.apply
  | .methods edit => ctx.updateMethods edit.apply

/-! ### What a step reports -/

/-- Whether a resolver acted on the host, rather than answered what it can do. -/
def Interaction.isPerformance : Interaction → Bool
  | .read .. => true
  | .write .. => true
  | .execute .. => true
  | _ => false

/-- The reads, writes and executions of a trail. -/
def performances {σ : Type} (trail : List (Event σ)) : List (Event σ) :=
  trail.filter fun e => e.interaction.isPerformance

/-- What the host gets to see of an evaluation or an assignment. -/
structure Report (σ : Type) where
  /-- The value of an evaluation; an assignment has none. -/
  result : Except EvalError (Option Value)
  /-- The reads, writes and executions, the last one first. -/
  performed : List (Event σ)

def Outcome.report {σ α : Type} (o : Outcome σ α) (value : α → Option Value) : Report σ :=
  ⟨o.result.map value, performances o.trail⟩

/-! ### Sessions -/

structure Session (σ : Type) where
  contexts : List (Context σ) := []
  /-- The generations that no chain has had yet. -/
  supply : TokenSupply := {}
  world : σ
  compiled : Compiled

/-- A step of a host. Contexts are named by their numbers; a step in a context that does not exist
does nothing. -/
inductive Action (σ : Type) where
  /-- Opens a context without resolvers. -/
  | create (config : Config)
  | edit (number : Nat) (change : ContextEdit σ)
  /-- Gives a context a copy of the property resolvers of another one. -/
  | copyProperties (source target : Nat)
  /-- Gives a context a copy of the method resolvers of another one. -/
  | copyMethods (source target : Nat)
  /-- Changes the objects of the host. -/
  | touch (change : σ → σ)
  /-- Makes the expression forget who answered. -/
  | forget
  | evaluate (number : Nat)
  | assign (number : Nat) (value : Value)

namespace Session

variable {σ : Type}

def start (world : σ) (compiled : Compiled) : Session σ :=
  { world, compiled }

def update (s : Session σ) (number : Nat) (change : Context σ → Fresh (Context σ)) : Session σ :=
  match s.contexts[number]? with
  | none => s
  | some ctx =>
    let (changed, supply) := (change ctx).run s.supply
    { s with contexts := s.contexts.set number changed, supply }

def after {α : Type} (s : Session σ) (o : Outcome σ α) : Session σ :=
  { s with world := o.world, compiled := o.compiled }

variable [Host σ] (reenter : Context σ → Reenter σ)

/-- One step: its report, if it has one, and the session after it. -/
def act (s : Session σ) : Action σ → Option (Report σ) × Session σ
  | .create config =>
    let (ctx, supply) := (Context.new config).run s.supply
    (none, { s with contexts := s.contexts ++ [ctx], supply })
  | .edit number change => (none, s.update number change.apply)
  | .copyProperties source target =>
    match s.contexts[source]? with
    | none => (none, s)
    | some giver =>
      (none, s.update target fun ctx => pure { ctx with properties := giver.properties })
  | .copyMethods source target =>
    match s.contexts[source]? with
    | none => (none, s)
    | some giver => (none, s.update target fun ctx => pure { ctx with methods := giver.methods })
  | .touch change => (none, { s with world := change s.world })
  | .forget => (none, { s with compiled := s.compiled.forget })
  | .evaluate number =>
    match s.contexts[number]? with
    | none => (none, s)
    | some ctx =>
      let o := s.compiled.getValue ctx (reenter ctx) s.world
      (some (o.report some), s.after o)
  | .assign number value =>
    match s.contexts[number]? with
    | none => (none, s)
    | some ctx =>
      let o := s.compiled.setValue ctx (reenter ctx) value s.world
      (some (o.report fun _ => none), s.after o)

/-- A run: the reports of its steps in order, and the session after it. -/
def run (s : Session σ) : List (Action σ) → List (Report σ) × Session σ
  | [] => ([], s)
  | a :: rest =>
    let (report, next) := s.act reenter a
    let (reports, last) := next.run rest
    (report.toList ++ reports, last)

end Session

/-! ### What is asked of resolvers

A resolver of a host may itself evaluate in the context that asks it. What is asked of resolvers
here concerns the environments that contexts give them, with one way to do so. -/

section Resolvers

variable {σ : Type} [Host σ] (reenter : Context σ → Reenter σ)

/-- Asking what the resolver can do changes nothing. -/
structure PropertyResolver.Quiet (r : PropertyResolver σ) : Prop where
  canRead : ∀ (ctx : Context σ) target name world,
    ((r.canRead (ctx.environment (reenter ctx)) target name).run.run world).2 = world
  canWrite : ∀ (ctx : Context σ) target name world,
    ((r.canWrite (ctx.environment (reenter ctx)) target name).run.run world).2 = world

structure MethodResolver.Quiet (r : MethodResolver σ) : Prop where
  resolve : ∀ (ctx : Context σ) target name argTypes world,
    ((r.resolve (ctx.environment (reenter ctx)) target name argTypes).run.run world).2 = world

/-- Whether the resolver accepts, declines or fails is settled by the name and the type of the
target. -/
structure PropertyResolver.ByShape (r : PropertyResolver σ) : Prop where
  canRead : ∃ verdict : String → ValueType → Option Bool,
    ∀ (ctx : Context σ) target name world,
      ((r.canRead (ctx.environment (reenter ctx)) target name).run.run world).1.toOption =
        verdict name (target.valueType (Host.view world))
  canWrite : ∃ verdict : String → ValueType → Option Bool,
    ∀ (ctx : Context σ) target name world,
      ((r.canWrite (ctx.environment (reenter ctx)) target name).run.run world).1.toOption =
        verdict name (target.valueType (Host.view world))

/-- Whether the resolver accepts, declines or fails is settled by the name and the types of the
target and the arguments. -/
structure MethodResolver.ByShape (r : MethodResolver σ) : Prop where
  resolve : ∃ verdict : String → ValueType → List ValueType → Option Bool,
    ∀ (ctx : Context σ) target name argTypes world,
      ((r.resolve (ctx.environment (reenter ctx)) target name argTypes).run.run
          world).1.toOption.map Option.isSome =
        verdict name (target.valueType (Host.view world)) argTypes

/-- Questions to the resolvers of a context change nothing, and of those that stand before another
one the answer is settled by the shape of the access. -/
structure Context.Orderly (ctx : Context σ) : Prop where
  properties_quiet : ∀ r ∈ ctx.properties.order, r.Quiet reenter
  properties_byShape : ∀ r ∈ ctx.properties.order.dropLast, r.ByShape reenter
  methods_quiet : ∀ r ∈ ctx.methods.order, r.Quiet reenter
  methods_byShape : ∀ r ∈ ctx.methods.order.dropLast, r.ByShape reenter

def Session.Orderly (s : Session σ) : Prop :=
  ∀ ctx ∈ s.contexts, ctx.Orderly reenter

end Resolvers

end HostExpr
