import HostExpr.Expr.Phrase

/-!
The rules of the grammar and what they match.

A `Pair` is a match of a rule: its place, its text and the pairs in it. A `Scanner` looks for pairs
from some place on. Tokens are matched without spaces in them; between the parts of any other
sequence spaces are passed over, also where the part after them turns out to be absent. The first
alternative that matches is taken, and repetition goes on as long as it can.

The productions are those of the grammar, in its order. Like the readers of phrases they are
written over a scanner `nested` for what stands in brackets, in arguments and after an assignment
sign.
-/

namespace HostExpr

/-- The rules whose matches are kept as pairs. -/
inductive Rule where
  | expression | endOfInput
  | assignment | ternary
  | logicalOr | logicalAnd | relational | additive | multiplicative
  | unary | primary
  | parenthesised | inlineList | variable | methodCall | property
  | orOp | andOp | relOp | addOp | mulOp | unaryOp
  | nullLit | boolLit | realLit | longLit | intLit | sqString | sqInner | dqString | dqInner
  | identifier
  deriving DecidableEq

inductive Pair where
  | mk (rule : Rule) (span : Span) (text : List Char) (inner : List Pair)

namespace Pair

def rule : Pair → Rule
  | .mk r _ _ _ => r

def span : Pair → Span
  | .mk _ s _ _ => s

def text : Pair → List Char
  | .mk _ _ t _ => t

/-- The matches of other rules in it. -/
def inner : Pair → List Pair
  | .mk _ _ _ ps => ps

mutual

/-- The pair and all pairs in it, from left to right, each before those in it. -/
def flatten : Pair → List Pair
  | .mk r s t inner => .mk r s t inner :: flattenAll inner

def flattenAll : List Pair → List Pair
  | [] => []
  | p :: ps => flatten p ++ flattenAll ps

end

end Pair

/-- Looks for pairs at a place and gives the place after them. -/
abbrev Scanner := Cursor → Option (List Pair × Cursor)

namespace Scanner

/-- What a matcher finds, without a pair for it. -/
def mute (m : Matcher) : Scanner := fun c =>
  (c.take m).map fun found => ([], found.2)

/-- A match of a rule, with the pairs in it. -/
def rule (r : Rule) (s : Scanner) : Scanner := fun c =>
  (s c).map fun (inner, last) =>
    let text := c.rest.take (c.rest.length - last.rest.length)
    ([.mk r ⟨c.offset, last.offset⟩ text inner], last)

/-- A match of a rule that consists of characters only. -/
def token (r : Rule) (m : Matcher) : Scanner :=
  rule r (mute m)

/-- One after another, with nothing between them. -/
def adjacent (s t : Scanner) : Scanner := fun c => do
  let (ps, afterFirst) ← s c
  let (qs, last) ← t afterFirst
  return (ps ++ qs, last)

/-- One after another, with any spaces between them. -/
def seq (s t : Scanner) : Scanner := fun c => do
  let (ps, afterFirst) ← s c
  let (qs, last) ← t afterFirst.skip
  return (ps ++ qs, last)

def optional (s : Scanner) : Scanner := fun c =>
  (s c).orElse fun _ => some ([], c)

def firstOf : List Scanner → Scanner
  | [], _ => none
  | s :: ss, c => (s c).orElse fun _ => firstOf ss c

/-- The same once more and again, each time after any spaces. -/
def more (s : Scanner) : Nat → Cursor → List Pair × Cursor
  | 0, c => ([], c)
  | limit + 1, c =>
    match s c.skip with
    | none => ([], c)
    | some (ps, afterOne) =>
      let (qs, last) := more s limit afterOne
      (ps ++ qs, last)

/-- Any number of the same, with any spaces between them. Each takes up a character, so the length
of the text bounds their number. -/
def star (s : Scanner) : Scanner := fun c =>
  match s c with
  | none => some ([], c)
  | some (ps, afterOne) =>
    let (qs, last) := more s afterOne.rest.length afterOne
    some (ps ++ qs, last)

end Scanner

namespace Production

open Lexeme (mark word whole digits)
open Scanner

def anyOf (ms : List Matcher) : Matcher := fun cs =>
  ms.findSome? (· cs)

/-- A bracket or another character that leaves no pair. -/
def sign (c : Char) : Scanner :=
  mute (mark [c])

/-! ### Tokens -/

def operator {α : Type} (r : Rule) (operators : List (α × Matcher)) : Scanner :=
  token r (anyOf (operators.map (·.2)))

/-- The text between two quotes; a quote in it is written twice. -/
def quotedBody (quote : Char) : Matcher
  | c :: d :: rest =>
    if c = quote then
      if d = quote then (quotedBody quote rest).map fun (a, r) => (c :: d :: a, r)
      else some ([], c :: d :: rest)
    else (quotedBody quote (d :: rest)).map fun (a, r) => (c :: a, r)
  | [c] => if c = quote then some ([], [c]) else some ([c], [])
  | [] => some ([], [])

def quoted (r body : Rule) (quote : Char) : Scanner :=
  rule r (adjacent (sign quote) (adjacent (token body (quotedBody quote)) (sign quote)))

def literals : List Scanner :=
  [token .nullLit (word ["null"]),
   token .boolLit (word ["true", "false"]),
   token .realLit (whole (Lexeme.seq digits Lexeme.realTail)),
   token .longLit (whole (Lexeme.seq digits (Lexeme.oneOf ['l', 'L']))),
   token .intLit (whole digits),
   quoted .sqString .sqInner '\'',
   quoted .dqString .dqInner '"']

def literal : Scanner :=
  firstOf literals

def identifier : Scanner :=
  token .identifier Lexeme.name

/-! ### Phrases -/

def items (nested : Scanner) : Scanner :=
  optional (seq nested (star (seq (sign ',') nested)))

def parenthesised (nested : Scanner) : Scanner :=
  rule .parenthesised (seq (sign '(') (seq nested (sign ')')))

def inlineList (nested : Scanner) : Scanner :=
  rule .inlineList (seq (sign '\x7b') (seq (items nested) (sign '\x7d')))

def reference : Scanner :=
  rule .variable (adjacent (sign '#') identifier)

def methodCall (nested : Scanner) : Scanner :=
  rule .methodCall (seq identifier (seq (sign '(') (seq (items nested) (sign ')'))))

def property : Scanner :=
  rule .property identifier

def startNode (nested : Scanner) : Scanner :=
  firstOf [literal, parenthesised nested, inlineList nested, reference, methodCall nested, property]

def node (nested : Scanner) : Scanner :=
  firstOf [methodCall nested, property]

def primary (nested : Scanner) : Scanner :=
  rule .primary (seq (startNode nested) (star (seq (sign '.') (node nested))))

def unary (nested : Scanner) : Scanner :=
  rule .unary (seq (star (operator .unaryOp Grammar.signs)) (primary nested))

def operands (r opRule : Rule) (operators : List (BinaryOperator × Matcher)) (operand : Scanner) :
    Scanner :=
  rule r (seq operand (star (seq (operator opRule operators) operand)))

def multiplicative (nested : Scanner) : Scanner :=
  operands .multiplicative .mulOp Grammar.productOperators (unary nested)

def additive (nested : Scanner) : Scanner :=
  operands .additive .addOp Grammar.sumOperators (multiplicative nested)

/-- A relation stands alone between two operands. -/
def relational (nested : Scanner) : Scanner :=
  rule .relational (seq (additive nested)
    (optional (seq (operator .relOp Grammar.relations) (additive nested))))

def logicalAnd (nested : Scanner) : Scanner :=
  operands .logicalAnd .andOp Grammar.andOperators (relational nested)

def logicalOr (nested : Scanner) : Scanner :=
  operands .logicalOr .orOp Grammar.orOperators (logicalAnd nested)

def ternary (nested : Scanner) : Scanner :=
  rule .ternary (seq (logicalOr nested)
    (optional (seq (sign '?') (seq nested (seq (sign ':') nested)))))

def assignment (nested : Scanner) : Scanner :=
  rule .assignment (seq (ternary nested) (optional (seq (mute Grammar.assignSign) nested)))

/-- An assignment with brackets, arguments and further assignments in it, up to a depth. -/
def assignmentUpTo : Nat → Scanner
  | 0 => fun _ => none
  | depth + 1 => assignment (assignmentUpTo depth)

def startOfInput : Scanner := fun c =>
  if c.offset = 0 then some ([], c) else none

def endOfInput : Scanner :=
  rule .endOfInput fun c => if c.rest = [] then some ([], c) else none

def expression (depth : Nat) : Scanner :=
  rule .expression (seq startOfInput (seq (assignmentUpTo depth) endOfInput))

end Production

/-- What the grammar matches in a source, if it matches. -/
def Pair.ofSource? (source : String) : Option (List Pair) :=
  let start := Cursor.start source
  (Production.expression (start.rest.length + 1) start).map (·.1)

end HostExpr
