/-!
The settings of an evaluation.
-/

namespace HostExpr

/-- When a number may move to a narrower kind. -/
inductive Narrowing where
  /-- Never. -/
  | never
  /-- When the number survives the way back unchanged. -/
  | lossless
  /-- Always: fractions are dropped and what is out of range saturates or wraps. -/
  | truncating
  deriving DecidableEq

namespace Narrowing

/-- How the policy is written in a configuration. -/
def name : Narrowing → String
  | .never => "never"
  | .lossless => "lossless"
  | .truncating => "truncating"

def inspect : Narrowing → String
  | .never => "Never"
  | .lossless => "Lossless"
  | .truncating => "Truncating"

/-- All policies, the strictest first. -/
def all : List Narrowing :=
  [.never, .lossless, .truncating]

end Narrowing

structure Config where
  /-- Whether expressions remember which resolver answered. -/
  resolutionCache : Bool := true
  narrowing : Narrowing := .lossless
  deriving DecidableEq

instance : Inhabited Config := ⟨{}⟩

end HostExpr
