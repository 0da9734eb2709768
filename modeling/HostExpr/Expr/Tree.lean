import HostExpr.Value

/-!
Expression trees.

One type of tree serves two stages. A `Phrase` is what the grammar finds in a source: its nodes have
no numbers and its literals are still texts. An `Expr` is what is evaluated: its nodes are numbered
and its literals are values. Every node keeps the bytes of the source that it covers.
-/

namespace HostExpr

/-- The bytes of a source from `first` up to, but not including, `last`. -/
structure Span where
  first : Nat
  last : Nat
  deriving DecidableEq

/-- The number of a node within its expression. It stands for one of 32 bits, and so only for
expressions of at most `2 ^ 32` nodes, whose numbers all fit. -/
abbrev NodeId := Nat

inductive BinaryOperator where
  | or
  | and
  | equal
  | notEqual
  | lessThan
  | lessThanEqual
  | greaterThan
  | greaterThanEqual
  | arithmetic (op : ArithmeticOperator)
  deriving DecidableEq

def BinaryOperator.symbol : BinaryOperator → String
  | .or => "or"
  | .and => "and"
  | .equal => "=="
  | .notEqual => "!="
  | .lessThan => "<"
  | .lessThanEqual => "<="
  | .greaterThan => ">"
  | .greaterThanEqual => ">="
  | .arithmetic op => op.symbol

inductive UnaryOperator where
  | not
  | minus
  | plus
  deriving DecidableEq

def UnaryOperator.symbol : UnaryOperator → String
  | .not => "not"
  | .minus => "-"
  | .plus => "+"

inductive Literal where
  | null
  | boolean (b : Bool)
  | number (n : Number)
  | string (s : String)
  deriving DecidableEq

def Literal.toValue : Literal → Value
  | .null => .null
  | .boolean b => .boolean b
  | .number n => .number n
  | .string s => .string s

/-- An expression tree whose nodes carry an identity of type `ι` and whose literals are of type
`α`. -/
inductive Tree (ι α : Type) where
  | literal (id : ι) (span : Span) (value : α)
  /-- `#name`; `#root` and `#this` stand for the root object and the active object. -/
  | variable (id : ι) (span : Span) (name : String)
  /-- A property of the active object. -/
  | property (id : ι) (span : Span) (name : String)
  /-- A method of the active object. -/
  | call (id : ι) (span : Span) (name : String) (args : List (Tree ι α))
  /-- `a.b.c()`: each segment has the result of the one before it as its active object. -/
  | path (id : ι) (span : Span) (segments : List (Tree ι α))
  | binary (id : ι) (span : Span) (op : BinaryOperator) (left right : Tree ι α)
  | unary (id : ι) (span : Span) (op : UnaryOperator) (operand : Tree ι α)
  | ternary (id : ι) (span : Span) (condition whenTrue whenFalse : Tree ι α)
  | list (id : ι) (span : Span) (items : List (Tree ι α))
  | assign (id : ι) (span : Span) (target value : Tree ι α)

abbrev Expr := Tree NodeId Literal

instance : Inhabited Expr := ⟨.literal 0 ⟨0, 0⟩ .null⟩

namespace Tree

variable {ι α : Type}

def id : Tree ι α → ι
  | .literal i .. => i
  | .variable i .. => i
  | .property i .. => i
  | .call i .. => i
  | .path i .. => i
  | .binary i .. => i
  | .unary i .. => i
  | .ternary i .. => i
  | .list i .. => i
  | .assign i .. => i

def span : Tree ι α → Span
  | .literal _ s _ => s
  | .variable _ s _ => s
  | .property _ s _ => s
  | .call _ s .. => s
  | .path _ s _ => s
  | .binary _ s .. => s
  | .unary _ s .. => s
  | .ternary _ s .. => s
  | .list _ s _ => s
  | .assign _ s .. => s

/-- The direct subtrees, from left to right. -/
def children : Tree ι α → List (Tree ι α)
  | .literal .. => []
  | .variable .. => []
  | .property .. => []
  | .call _ _ _ args => args
  | .path _ _ segments => segments
  | .binary _ _ _ l r => [l, r]
  | .unary _ _ _ t => [t]
  | .ternary _ _ c t f => [c, t, f]
  | .list _ _ items => items
  | .assign _ _ t v => [t, v]

mutual

/-- All subtrees, each one after those below it, from left to right. -/
def subtrees : Tree ι α → List (Tree ι α)
  | t@(.literal ..) => [t]
  | t@(.variable ..) => [t]
  | t@(.property ..) => [t]
  | t@(.call _ _ _ args) => subtreesAll args ++ [t]
  | t@(.path _ _ segments) => subtreesAll segments ++ [t]
  | t@(.binary _ _ _ l r) => subtrees l ++ subtrees r ++ [t]
  | t@(.unary _ _ _ u) => subtrees u ++ [t]
  | t@(.ternary _ _ c u v) => subtrees c ++ subtrees u ++ subtrees v ++ [t]
  | t@(.list _ _ items) => subtreesAll items ++ [t]
  | t@(.assign _ _ u v) => subtrees u ++ subtrees v ++ [t]

def subtreesAll : List (Tree ι α) → List (Tree ι α)
  | [] => []
  | t :: ts => subtrees t ++ subtreesAll ts

end

def nodeCount (t : Tree ι α) : Nat :=
  t.subtrees.length

end Tree

end HostExpr
