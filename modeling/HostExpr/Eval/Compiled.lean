import HostExpr.Eval.Evaluate
import HostExpr.Expr.Parse

/-!
Expressions that are evaluated any number of times, in any contexts.

A compiled expression keeps its source, its tree and, if it may, a cache of who answered its
accesses. A context may forbid the use of the cache. The result of an evaluation can be converted
to a type or extracted as data of one.
-/

namespace HostExpr

/-- An expression with what it remembers. -/
structure Compiled where
  source : String
  expr : Expr
  cache : Option ResolutionCache

/-- What an evaluation leaves behind. -/
structure Outcome (σ α : Type) where
  result : Except EvalError α
  world : σ
  /-- The expression with what it remembers now. -/
  compiled : Compiled
  /-- The interactions with resolvers, the last one first. -/
  trail : List (Event σ)

/-- How data is taken out of a value that was converted to a type. -/
structure Extractor (α : Type) where
  type : ValueType
  extract : Value → Option α

namespace Extractor

def boolean : Extractor Bool := ⟨.boolean, Value.boolean?⟩

def string : Extractor String := ⟨.string, Value.string?⟩

def value : Extractor Value := ⟨.any, some⟩

def int : Extractor Int32 where
  type := .int
  extract
    | .number (.int i) => some i
    | _ => none

def long : Extractor Int64 where
  type := .long
  extract
    | .number (.long i) => some i
    | _ => none

def float : Extractor Single where
  type := .float
  extract
    | .number (.float x) => some x
    | _ => none

def double : Extractor Double where
  type := .double
  extract
    | .number (.double x) => some x
    | _ => none

end Extractor

namespace Compiled

def new (source : String) (expr : Expr) (caching : Bool) : Compiled :=
  { source, expr, cache := if caching then some {} else none }

def ofSource (source : String) (config : Config) : Except ParseError Compiled :=
  (Expr.parse source).map fun expr => new source expr config.resolutionCache

def isCaching (c : Compiled) : Bool :=
  c.cache.isSome

/-- The number of answers that the expression remembers. -/
def remembered (c : Compiled) : Nat :=
  (c.cache.map (·.size)).getD 0

def forget (c : Compiled) : Compiled :=
  { c with cache := c.cache.map (·.clear) }

def inspect (c : Compiled) : String :=
  "CompiledExpression \x7b source: " ++ Text.quoted c.source ++ ", caching: " ++
    (if c.isCaching then "true" else "false") ++ " \x7d"

variable {σ : Type} {α : Type}

/-- Runs a computation with the root object active and with the expression's cache, if the context
allows it. -/
def run (c : Compiled) (ctx : Context σ) (act : EvalM σ α) (world : σ) : Outcome σ α :=
  let cache := if ctx.config.resolutionCache then c.cache else none
  let (result, after) := act.run.run { world, active := [ctx.root], cache }
  { result
    world := after.world
    compiled := if ctx.config.resolutionCache then { c with cache := after.cache } else c
    trail := after.trail }

variable [Host σ]

def getValue (c : Compiled) (ctx : Context σ) (reenter : Reenter σ) (world : σ) :
    Outcome σ Value :=
  c.run ctx (ctx.evaluate reenter c.expr) world

def getTypedValue (c : Compiled) (ctx : Context σ) (reenter : Reenter σ) (expected : ValueType)
    (world : σ) : Outcome σ Value :=
  let outcome := c.getValue ctx reenter world
  { outcome with
    result := outcome.result.bind fun v =>
      ctx.converter.convert (Host.view outcome.world) v expected }

def getExtracted (c : Compiled) (ctx : Context σ) (reenter : Reenter σ) (x : Extractor α)
    (world : σ) : Outcome σ α :=
  let outcome := c.getTypedValue ctx reenter x.type world
  { outcome with
    result := outcome.result.bind fun v =>
      match x.extract v with
      | some a => .ok a
      | none => .error (.typeMismatch (.notExtractable x.type)) }

/-- Writes a value to what the expression names. -/
def setValue (c : Compiled) (ctx : Context σ) (reenter : Reenter σ) (value : Value) (world : σ) :
    Outcome σ Unit :=
  c.run ctx (ctx.assign reenter c.expr value) world

end Compiled

end HostExpr
