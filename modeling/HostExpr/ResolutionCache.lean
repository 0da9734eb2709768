import HostExpr.Chain
import HostExpr.Expr.Tree
import HostExpr.Table

/-!
What an expression remembers of who answered its accesses.

An entry is kept for each node and shape of access. It says which position of a chain answered and
of which generation the chain was; for a chain of any other generation there is no entry. What is
recorded later takes the place of what was recorded before, so a key has at most one entry.
-/

namespace HostExpr

inductive AccessKind where
  | read
  | write
  | call
  deriving DecidableEq

/-- A node and the shape of an access made by it. -/
structure CacheKey where
  node : NodeId
  access : AccessKind
  target : ValueType
  /-- The types of the arguments of a call. -/
  argTypes : Option (List ValueType)
  deriving DecidableEq

structure CacheEntry where
  generation : Generation
  index : Nat
  deriving DecidableEq

structure ResolutionCache where
  entries : Table CacheKey CacheEntry := .empty

namespace ResolutionCache

/-- The position that answered an access in a chain of this generation. -/
def lookup (c : ResolutionCache) (key : CacheKey) (generation : Generation) : Option Nat :=
  ((c.entries.find? key).filter fun e => e.generation = generation).map (·.index)

def record (c : ResolutionCache) (key : CacheKey) (generation : Generation) (index : Nat) :
    ResolutionCache :=
  ⟨c.entries.insert key ⟨generation, index⟩⟩

def size (c : ResolutionCache) : Nat :=
  c.entries.size

def isEmpty (c : ResolutionCache) : Bool :=
  c.size = 0

def clear (_ : ResolutionCache) : ResolutionCache := {}

end ResolutionCache

end HostExpr
