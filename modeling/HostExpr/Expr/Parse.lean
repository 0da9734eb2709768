import HostExpr.Expr.Phrase

/-!
From a source to an expression: its phrase, with literals decoded and nodes numbered.

Nodes are numbered from zero, each after those below it, siblings from left to right. Literals are
decoded on the way, so of several literals that have no value the leftmost is reported.
-/

namespace HostExpr

inductive LiteralFault where
  /-- An integer beyond its width. -/
  | tooLarge
  /-- A real whose digits cannot be read. -/
  | malformed
  deriving DecidableEq

def LiteralFault.text : LiteralFault → String
  | .tooLarge => "number too large to fit in target type"
  | .malformed => "invalid float literal"

inductive ParseError where
  /-- The grammar does not match. -/
  | badSyntax
  | invalidLiteral (text : String) (span : Span) (fault : LiteralFault)
  deriving DecidableEq

def ParseError.message : ParseError → String
  | .badSyntax => "syntax error"
  | .invalidLiteral text span fault =>
    "invalid literal '" ++ text ++ "' at " ++ Decimal.integerText span.first ++ ".." ++
      Decimal.integerText span.last ++ ": " ++ fault.text

namespace LiteralText

/-- A quoted text with each doubled quote made single. -/
def undouble (quote : Char) : List Char → List Char
  | c :: d :: rest =>
    if c = quote ∧ d = quote then c :: undouble quote rest else c :: undouble quote (d :: rest)
  | cs => cs

def content (quote : Char) (chars : List Char) : List Char :=
  undouble quote (chars.drop 1).dropLast

/-- The integer that digits denote, if it is within a bound. -/
def readBounded (bound : Int) (digits : List Char) : Except LiteralFault Int :=
  match Decimal.readDigits digits with
  | some n => if (n : Int) ≤ bound then .ok n else .error .tooLarge
  | none => .error .malformed

/-- The real number that a literal without its suffix denotes. -/
def readReal {f : FloatFormat} (chars : List Char) : Except LiteralFault (Floating f) :=
  match Floating.read chars with
  | some x => .ok x
  | none => .error .malformed

/-- The number that a real literal denotes: a single with suffix `f`, else a double. -/
def realValue (chars : List Char) : Except LiteralFault Number :=
  match chars.getLast?.map Char.toLower with
  | some 'f' => (readReal chars.dropLast).map .float
  | some 'd' => (readReal chars.dropLast).map .double
  | _ => (readReal chars).map .double

def decode (t : LiteralText) : Except LiteralFault Literal :=
  match t.kind with
  | .null => .ok .null
  | .boolean => .ok (.boolean (Lexeme.lowered t.chars = "true"))
  | .integer => do
    let i ← readBounded Int32.maxValue.toInt t.chars
    return .number (.int (.ofInt i))
  | .long => do
    let i ← readBounded Int64.maxValue.toInt t.chars.dropLast
    return .number (.long (.ofInt i))
  | .real => (realValue t.chars).map .number
  | .quoted quote => .ok (.string (String.ofList (content quote t.chars)))

end LiteralText

namespace Expr

/-- A step of numbering: it may use up numbers, and may fail. -/
abbrev Numbering := StateT NodeId (Except ParseError)

def nextId : Numbering NodeId := fun n => .ok (n, n + 1)

def decodeLiteral (span : Span) (t : LiteralText) : Numbering Literal := fun n =>
  match t.decode with
  | .ok l => .ok (l, n)
  | .error fault => .error (.invalidLiteral (String.ofList t.chars) span fault)

mutual

/-- Decodes the literals of a phrase and numbers its nodes. -/
def ofPhrase : Phrase → Numbering Expr
  | .literal _ span text => do
    let value ← decodeLiteral span text
    return .literal (← nextId) span value
  | .variable _ span name => return .variable (← nextId) span name
  | .property _ span name => return .property (← nextId) span name
  | .call _ span name args => do
    let args ← ofPhrases args
    return .call (← nextId) span name args
  | .path _ span segments => do
    let segments ← ofPhrases segments
    return .path (← nextId) span segments
  | .binary _ span op left right => do
    let left ← ofPhrase left
    let right ← ofPhrase right
    return .binary (← nextId) span op left right
  | .unary _ span op operand => do
    let operand ← ofPhrase operand
    return .unary (← nextId) span op operand
  | .ternary _ span condition whenTrue whenFalse => do
    let condition ← ofPhrase condition
    let whenTrue ← ofPhrase whenTrue
    let whenFalse ← ofPhrase whenFalse
    return .ternary (← nextId) span condition whenTrue whenFalse
  | .list _ span items => do
    let items ← ofPhrases items
    return .list (← nextId) span items
  | .assign _ span target value => do
    let target ← ofPhrase target
    let value ← ofPhrase value
    return .assign (← nextId) span target value

def ofPhrases : List Phrase → Numbering (List Expr)
  | [] => return []
  | p :: ps => do
    let e ← ofPhrase p
    let es ← ofPhrases ps
    return e :: es

end

def parse (source : String) : Except ParseError Expr :=
  (Phrase.ofSource? source).elim (.error .badSyntax) fun phrase =>
    ((ofPhrase phrase).run 0).map (·.1)

end Expr

end HostExpr
