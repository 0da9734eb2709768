import HostExpr.Expr.Lexeme
import HostExpr.Expr.Tree

/-!
Reading a source into a phrase, the tree that its grammar describes.

From loosest to tightest the operators bind as assignment, `? :`, or, and, relations, sums,
products, signs, paths. Or, and, sums and products group to the left, a relation stands alone
between two sums, and an assignment groups to the right. Spaces may stand between any two lexemes.

A reader takes a place in the source to a phrase and the place after it. The readers of one level
are written over a reader `nested` for what stands in brackets, in arguments and after an
assignment sign; `assignmentUpTo` closes the circle, and as each nesting consumes a character, the
length of the source bounds its depth.
-/

namespace HostExpr

/-- A literal as it stands in a source. -/
structure LiteralText where
  kind : Lexeme.Kind
  chars : List Char
  deriving DecidableEq

abbrev Phrase := Tree Unit LiteralText

/-- A place in a source: the bytes before it and the characters from it on. -/
structure Cursor where
  offset : Nat
  rest : List Char
  deriving DecidableEq

def byteLength : List Char → Nat
  | [] => 0
  | c :: cs => c.utf8Size + byteLength cs

namespace Cursor

def start (source : String) : Cursor :=
  ⟨0, source.toList⟩

def skip (c : Cursor) : Cursor :=
  ⟨c.offset + byteLength (c.rest.takeWhile Lexeme.isSpace), c.rest.dropWhile Lexeme.isSpace⟩

/-- What a matcher finds here, and the place after it. -/
def take (c : Cursor) (m : Matcher) : Option (List Char × Cursor) :=
  (m c.rest).map fun (found, rest) => (found, ⟨c.offset + byteLength found, rest⟩)

/-- The place after a character that stands here. -/
def expect (c : Cursor) (char : Char) : Option Cursor :=
  (c.take (Lexeme.mark [char])).map (·.2)

/-- The first of some choices that is found here, and the place after it. -/
def choose {α : Type} (c : Cursor) (choices : List (α × Matcher)) : Option (α × Cursor) :=
  choices.findSome? fun (a, m) => (c.take m).map fun found => (a, found.2)

end Cursor

namespace Grammar

open Lexeme (mark word)

abbrev Reader (α : Type) := Cursor → Option (α × Cursor)

/-! ### Operators -/

def orOperators : List (BinaryOperator × Matcher) :=
  [(.or, mark ['|', '|']), (.or, word ["or"])]

def andOperators : List (BinaryOperator × Matcher) :=
  [(.and, mark ['&', '&']), (.and, word ["and"])]

/-- The ways to write relations; of two marks that begin alike the longer stands first. -/
def relations : List (BinaryOperator × Matcher) :=
  [(.equal, mark ['=', '=']), (.notEqual, mark ['!', '=']), (.lessThanEqual, mark ['<', '=']),
   (.greaterThanEqual, mark ['>', '=']), (.lessThan, mark ['<']), (.greaterThan, mark ['>']),
   (.equal, word ["eq"]), (.notEqual, word ["ne"]), (.lessThanEqual, word ["le"]),
   (.lessThan, word ["lt"]), (.greaterThanEqual, word ["ge"]), (.greaterThan, word ["gt"])]

def sumOperators : List (BinaryOperator × Matcher) :=
  [(.arithmetic .add, mark ['+']), (.arithmetic .subtract, mark ['-'])]

def productOperators : List (BinaryOperator × Matcher) :=
  [(.arithmetic .multiply, mark ['*']), (.arithmetic .divide, mark ['/']),
   (.arithmetic .remainder, mark ['%']), (.arithmetic .divide, word ["div"]),
   (.arithmetic .remainder, word ["mod"])]

/-- A match that an equals sign does not follow. -/
def notBeforeEquals (m : Matcher) : Matcher := fun cs =>
  (m cs).filter fun found => found.2.head? ≠ some '='

/-- The ways to write unary operators; an exclamation mark before `=` belongs to a relation. -/
def signs : List (UnaryOperator × Matcher) :=
  [(.not, notBeforeEquals (mark ['!'])), (.not, word ["not"]), (.minus, mark ['-']),
   (.plus, mark ['+'])]

def assignSign : Matcher :=
  notBeforeEquals (mark ['='])

/-! ### Levels of the grammar -/

def moreAfter (separator : Char) (item : Reader Phrase) : Nat → Cursor → List Phrase × Cursor
  | 0, c => ([], c)
  | limit + 1, c =>
    match c.skip.expect separator with
    | none => ([], c)
    | some afterSeparator =>
      match item afterSeparator.skip with
      | none => ([], c)
      | some (found, afterItem) =>
        let (items, last) := moreAfter separator item limit afterItem
        (found :: items, last)

/-- Reads items between commas, and the bracket that closes them. -/
def items (nested : Reader Phrase) (close : Char) : Reader (List Phrase) := fun c =>
  let (found, last) :=
    match nested c.skip with
    | none => ([], c)
    | some (item, afterItem) =>
      let (items, last) := moreAfter ',' nested afterItem.rest.length afterItem
      (item :: items, last)
  (last.skip.expect close).map fun afterClose => (found, afterClose)

/-- Reads a method call, or else a property. -/
def member (nested : Reader Phrase) : Reader Phrase := fun c => do
  let (name, afterName) ← c.take Lexeme.name
  let call := do
    let afterOpen ← afterName.skip.expect '('
    items nested ')' afterOpen
  match call with
  | some (args, last) =>
    return (.call () ⟨c.offset, last.offset⟩ (String.ofList name) args, last)
  | none => return (.property () ⟨c.offset, afterName.offset⟩ (String.ofList name), afterName)

def literal : Reader Phrase := fun c => do
  let (kind, chars, rest) ← Lexeme.literal c.rest
  let last : Cursor := ⟨c.offset + byteLength chars, rest⟩
  return (.literal () ⟨c.offset, last.offset⟩ ⟨kind, chars⟩, last)

/-- Reads a phrase in parentheses, which leave no trace. -/
def parenthesised (nested : Reader Phrase) : Reader Phrase := fun c => do
  let afterOpen ← c.expect '('
  let (inner, afterInner) ← nested afterOpen.skip
  let last ← afterInner.skip.expect ')'
  return (inner, last)

def inlineList (nested : Reader Phrase) : Reader Phrase := fun c => do
  let afterOpen ← c.expect '\x7b'
  let (found, last) ← items nested '\x7d' afterOpen
  return (.list () ⟨c.offset, last.offset⟩ found, last)

def hashName : Reader Phrase := fun c => do
  let afterHash ← c.expect '#'
  let (name, last) ← afterHash.take Lexeme.name
  return (.variable () ⟨c.offset, last.offset⟩ (String.ofList name), last)

def firstOf : List (Reader Phrase) → Reader Phrase
  | [], _ => none
  | r :: rs, c => (r c).orElse fun _ => firstOf rs c

/-- Reads the first segment of a path. -/
def head (nested : Reader Phrase) : Reader Phrase :=
  firstOf [literal, parenthesised nested, inlineList nested, hashName, member nested]

/-- Reads a path, or a single segment that stands for itself. -/
def path (nested : Reader Phrase) : Reader Phrase := fun c => do
  let (first, afterFirst) ← head nested c
  match moreAfter '.' (member nested) afterFirst.rest.length afterFirst with
  | ([], _) => return (first, afterFirst)
  | (segments, last) => return (.path () ⟨c.offset, last.offset⟩ (first :: segments), last)

def signed (nested : Reader Phrase) : Nat → Reader Phrase
  | 0, _ => none
  | limit + 1, c =>
    match c.choose signs with
    | none => path nested c
    | some (op, afterSign) => do
      let (operand, last) ← signed nested limit afterSign.skip
      return (.unary () ⟨c.offset, operand.span.last⟩ op operand, last)

/-- Reads further operands, each after an operator, and groups to the left. -/
def moreOperands (operators : List (BinaryOperator × Matcher)) (operand : Reader Phrase)
    (first : Nat) : Nat → Phrase → Cursor → Phrase × Cursor
  | 0, left, c => (left, c)
  | limit + 1, left, c =>
    match c.skip.choose operators with
    | none => (left, c)
    | some (op, afterOperator) =>
      match operand afterOperator.skip with
      | none => (left, c)
      | some (right, afterRight) =>
        moreOperands operators operand first limit
          (.binary () ⟨first, right.span.last⟩ op left right) afterRight

def operands (operators : List (BinaryOperator × Matcher)) (operand : Reader Phrase) :
    Reader Phrase := fun c => do
  let (left, afterLeft) ← operand c
  return moreOperands operators operand c.offset afterLeft.rest.length left afterLeft

/-- Reads one operand, or two with an operator between them. -/
def operandPair (operators : List (BinaryOperator × Matcher)) (operand : Reader Phrase) :
    Reader Phrase := fun c => do
  let (left, afterLeft) ← operand c
  return moreOperands operators operand c.offset 1 left afterLeft

def unary (nested : Reader Phrase) : Reader Phrase := fun c =>
  signed nested (c.rest.length + 1) c

def product (nested : Reader Phrase) : Reader Phrase :=
  operands productOperators (unary nested)

def sum (nested : Reader Phrase) : Reader Phrase :=
  operands sumOperators (product nested)

def relation (nested : Reader Phrase) : Reader Phrase :=
  operandPair relations (sum nested)

def conjunction (nested : Reader Phrase) : Reader Phrase :=
  operands andOperators (relation nested)

def disjunction (nested : Reader Phrase) : Reader Phrase :=
  operands orOperators (conjunction nested)

def branches (nested : Reader Phrase) : Reader (Phrase × Phrase) := fun c => do
  let afterMark ← c.skip.expect '?'
  let (whenTrue, afterTrue) ← nested afterMark.skip
  let afterColon ← afterTrue.skip.expect ':'
  let (whenFalse, last) ← nested afterColon.skip
  return ((whenTrue, whenFalse), last)

/-- Reads a disjunction, or a choice by it between two phrases. -/
def ternary (nested : Reader Phrase) : Reader Phrase := fun c => do
  let (condition, afterCondition) ← disjunction nested c
  match branches nested afterCondition with
  | none => return (condition, afterCondition)
  | some ((whenTrue, whenFalse), last) =>
    return (.ternary () ⟨c.offset, last.offset⟩ condition whenTrue whenFalse, last)

/-- Reads an assignment, or its target alone and the spaces after it. -/
def assignment (nested : Reader Phrase) : Reader Phrase := fun c => do
  let (target, afterTarget) ← ternary nested c
  let assigned := do
    let (_, afterSign) ← afterTarget.skip.take assignSign
    nested afterSign.skip
  match assigned with
  | none => return (target, afterTarget.skip)
  | some (value, last) => return (.assign () ⟨c.offset, last.offset⟩ target value, last)

/-- Reads an assignment with brackets, arguments and further assignments in it, up to a depth. -/
def assignmentUpTo : Nat → Reader Phrase
  | 0 => fun _ => none
  | depth + 1 => assignment (assignmentUpTo depth)

end Grammar

/-- The phrase that a whole source is, if the grammar matches it. -/
def Phrase.ofSource? (source : String) : Option Phrase := do
  let start := Cursor.start source
  let (phrase, last) ← Grammar.assignmentUpTo (start.rest.length + 1) start.skip
  if last.skip.rest = [] then some phrase else none

end HostExpr
