import HostExpr.Expr.Pair
import HostExpr.Expr.Parse

/-!
Building an expression from what the rules of the grammar match.

The builder goes by the rule of a pair and by the pairs in it. It looks operators up by their texts
in lower case, and stops with an unexpected state wherever a pair does not have the inner pairs that
it counts on; each such place has its number. Nodes are numbered in the order in which they are
built.
-/

namespace HostExpr

inductive BuildFailure where
  | parse (e : ParseError)
  /-- The builder came upon a pair that it has no use for. -/
  | unexpected (place : Nat) (rule : Rule) (span : Span)
  /-- The grammar matched, but left nothing. -/
  | emptyParse
  /-- The grammar matched, but left no expression. -/
  | noExpression

namespace Builder

/-- A step of building: it may use up numbers, and may fail. -/
abbrev Building := StateT NodeId (Except BuildFailure)

structure Part where
  pair : Pair
  build : Building Expr

/-- The binary operators by their texts in lower case. -/
def binaryOperators : List (String × BinaryOperator) :=
  [("or", .or), ("||", .or), ("and", .and), ("&&", .and),
   ("==", .equal), ("eq", .equal), ("!=", .notEqual), ("ne", .notEqual),
   ("<", .lessThan), ("lt", .lessThan), ("<=", .lessThanEqual), ("le", .lessThanEqual),
   (">", .greaterThan), ("gt", .greaterThan), (">=", .greaterThanEqual), ("ge", .greaterThanEqual),
   ("+", .arithmetic .add), ("-", .arithmetic .subtract), ("*", .arithmetic .multiply),
   ("/", .arithmetic .divide), ("div", .arithmetic .divide),
   ("%", .arithmetic .remainder), ("mod", .arithmetic .remainder)]

def unaryOperators : List (String × UnaryOperator) :=
  [("!", .not), ("not", .not), ("-", .minus), ("+", .plus)]

def operatorOf {α : Type} (table : List (String × α)) (p : Pair) : Option α :=
  table.lookup (Lexeme.lowered p.text)

def unexpected {α : Type} (place : Nat) (p : Pair) : Building α := fun _ =>
  .error (.unexpected place p.rule p.span)

def nextId : Building NodeId := fun n => .ok (n, n + 1)

def buildEach (parts : List Part) : Building (List Expr) :=
  parts.mapM (·.build)

/-- The value of a literal of a kind, or the fault with its place. -/
def decoded (kind : Lexeme.Kind) (p : Pair) : Building Literal := fun n =>
  match (LiteralText.mk kind p.text).decode with
  | .ok l => .ok (l, n)
  | .error fault => .error (.parse (.invalidLiteral (String.ofList p.text) p.span fault))

def body (p : Pair) : List Char :=
  (p.inner.head?.map (·.text)).getD []

def literalOf (p : Pair) : Building Literal :=
  match p.rule with
  | .nullLit => decoded .null p
  | .boolLit => decoded .boolean p
  | .intLit => decoded .integer p
  | .longLit => decoded .long p
  | .realLit => decoded .real p
  | .sqString => pure (.string (String.ofList (LiteralText.undouble '\'' (body p))))
  | .dqString => pure (.string (String.ofList (LiteralText.undouble '"' (body p))))
  | _ => unexpected 14 p

def identifierOf (p : Pair) : Building String :=
  match p.inner with
  | name :: _ =>
    if name.rule = .identifier then pure (String.ofList name.text) else unexpected 13 p
  | [] => unexpected 13 p

def buildAssignment (p : Pair) : List Part → Building Expr
  | [] => unexpected 3 p
  | [target] => target.build
  | target :: value :: _ => do
    let target ← target.build
    let value ← value.build
    return .assign (← nextId) p.span target value

def buildTernary (p : Pair) : List Part → Building Expr
  | [] => unexpected 4 p
  | condition :: branches => do
    let condition ← condition.build
    match branches with
    | [] => return condition
    | [_] => unexpected 5 p
    | whenTrue :: whenFalse :: _ =>
      let whenTrue ← whenTrue.build
      let whenFalse ← whenFalse.build
      return .ternary (← nextId) p.span condition whenTrue whenFalse

/-- Joins further operands to what stands on the left of them. -/
def joinOperands (first : Nat) : List Part → Expr → Building Expr
  | [], left => return left
  | op :: rest, left =>
    match operatorOf binaryOperators op.pair with
    | none => unexpected 7 op.pair
    | some operator =>
      match rest with
      | [] => unexpected 8 op.pair
      | right :: rest => do
        let right ← right.build
        joinOperands first rest (.binary (← nextId) ⟨first, right.span.last⟩ operator left right)

def buildBinary (p : Pair) : List Part → Building Expr
  | [] => unexpected 6 p
  | left :: rest => do
    let left ← left.build
    joinOperands p.span.first rest left

/-- Goes through signs and operands. The signs are kept with the last one first, and the last
operand counts. -/
def gatherSigns : List Part → List (UnaryOperator × Nat) → Option Expr →
    Building (List (UnaryOperator × Nat) × Option Expr)
  | [], signs, operand => return (signs, operand)
  | p :: ps, signs, operand =>
    if p.pair.rule = .unaryOp then
      match operatorOf unaryOperators p.pair with
      | none => unexpected 9 p.pair
      | some op => gatherSigns ps ((op, p.pair.span.first) :: signs) operand
    else do
      let e ← p.build
      gatherSigns ps signs (some e)

/-- Applies signs, the first one nearest to the operand. -/
def applySigns : List (UnaryOperator × Nat) → Expr → Building Expr
  | [], e => return e
  | (op, first) :: signs, e => do
    applySigns signs (.unary (← nextId) ⟨first, e.span.last⟩ op e)

def buildUnary (p : Pair) (parts : List Part) : Building Expr := do
  match ← gatherSigns parts [] none with
  | (_, none) => unexpected 10 p
  | (signs, some operand) => applySigns signs operand

def buildPrimary (p : Pair) (parts : List Part) : Building Expr := do
  match ← buildEach parts with
  | [] => unexpected 11 p
  | [segment] => return segment
  | segments => return .path (← nextId) p.span segments

def buildCall (p : Pair) : List Part → Building Expr
  | name :: args =>
    if name.pair.rule = .identifier then do
      let args ← buildEach args
      return .call (← nextId) p.span (String.ofList name.pair.text) args
    else unexpected 12 p
  | [] => unexpected 12 p

/-- Builds an expression from a pair, by its rule. -/
def assemble (p : Pair) (parts : List Part) : Building Expr :=
  match p.rule with
  | .assignment => buildAssignment p parts
  | .ternary => buildTernary p parts
  | .logicalOr | .logicalAnd | .relational | .additive | .multiplicative => buildBinary p parts
  | .unary => buildUnary p parts
  | .primary => buildPrimary p parts
  | .parenthesised =>
    match parts with
    | inner :: _ => inner.build
    | [] => unexpected 1 p
  | .inlineList => do
    let items ← buildEach parts
    return .list (← nextId) p.span items
  | .variable => do
    let name ← identifierOf p
    return .variable (← nextId) p.span name
  | .property => do
    let name ← identifierOf p
    return .property (← nextId) p.span name
  | .methodCall => buildCall p parts
  | .nullLit | .boolLit | .realLit | .longLit | .intLit | .sqString | .dqString => do
    let value ← literalOf p
    return .literal (← nextId) p.span value
  | _ => unexpected 2 p

mutual

def build : Pair → Building Expr
  | .mk rule span text inner => assemble (.mk rule span text inner) (parts inner)

def parts : List Pair → List Part
  | [] => []
  | p :: ps => ⟨p, build p⟩ :: parts ps

end

/-- The expression that a source is, by what the rules of the grammar match in it. -/
def parse (source : String) : Except BuildFailure Expr :=
  match Pair.ofSource? source with
  | none => .error (.parse .badSyntax)
  | some [] => .error .emptyParse
  | some (expression :: _) =>
    match expression.inner with
    | [] => .error .noExpression
    | pair :: _ => ((build pair).run 0).map (·.1)

end Builder

end HostExpr
