/-!
The words, marks and literals of the expression language.

A matcher takes the characters from some place on. If what it looks for stands there, it gives the
lexeme and the rest, and the two together are what it was given. Words are taken whole: a name or
the word of an operator never ends inside a run of name characters.
-/

namespace HostExpr

/-- Looks for something at the start of a text; gives what it found and what follows. -/
abbrev Matcher := List Char → Option (List Char × List Char)

namespace Lexeme

def isNameStart (c : Char) : Bool :=
  c.isAlpha || c = '_' || c = '$'

def isNameChar (c : Char) : Bool :=
  c.isAlphanum || c = '_' || c = '$'

def isSpace (c : Char) : Bool :=
  c = ' ' || c = '\t' || c = '\r' || c = '\n'

/-- Whether a word may end before this text. -/
def endsWord : List Char → Bool
  | [] => true
  | c :: _ => !isNameChar c

/-- The text in lower case, as words are compared. -/
def lowered (cs : List Char) : String :=
  String.ofList (cs.map Char.toLower)

/-- Words that cannot be names, in any letter case. -/
def keywords : List String :=
  ["and", "or", "not", "eq", "ne", "lt", "le", "gt", "ge", "div", "mod", "true", "false", "null"]

/-- A run of name characters, in lower case, if it is one of some words. -/
def word (words : List String) : Matcher := fun cs =>
  let run := cs.takeWhile isNameChar
  if words.contains (lowered run) then some (run, cs.dropWhile isNameChar) else none

/-- An exact sequence of characters. -/
def mark (expected : List Char) : Matcher := fun cs =>
  if expected.isPrefixOf cs then some (expected, cs.drop expected.length) else none

/-- A name: a run of name characters that begins like one and is not a keyword. -/
def name : Matcher := fun cs =>
  let run := cs.takeWhile isNameChar
  if run.head?.any isNameStart && !keywords.contains (lowered run) then
    some (run, cs.dropWhile isNameChar)
  else none

def digits : Matcher := fun cs =>
  let run := cs.takeWhile Char.isDigit
  if run = [] then none else some (run, cs.dropWhile Char.isDigit)

def oneOf (chars : List Char) : Matcher
  | c :: cs => if chars.contains c then some ([c], cs) else none
  | [] => none

def seq (first second : Matcher) : Matcher := fun cs => do
  let (a, rest) ← first cs
  let (b, rest) ← second rest
  return (a ++ b, rest)

def optional (m : Matcher) : Matcher := fun cs =>
  (m cs).orElse fun _ => some ([], cs)

def either (first second : Matcher) : Matcher := fun cs =>
  (first cs).orElse fun _ => second cs

/-- A match at whose end a word may end. -/
def whole (m : Matcher) : Matcher := fun cs =>
  (m cs).filter fun found => endsWord found.2

def exponent : Matcher :=
  seq (oneOf ['e', 'E']) (seq (optional (oneOf ['+', '-'])) digits)

/-- The letter that fixes the width of a real literal. -/
def realSuffix : Matcher :=
  oneOf ['f', 'F', 'd', 'D']

/-- What makes a number real: a fraction, an exponent or a suffix. -/
def realTail : Matcher :=
  either (seq (mark ['.']) (seq digits (seq (optional exponent) (optional realSuffix))))
    (either (seq exponent (optional realSuffix)) realSuffix)

inductive Kind where
  | null
  | boolean
  | real
  | long
  | integer
  | quoted (quote : Char)
  deriving DecidableEq

/-- The rest of a quoted text after its opening quote, with the closing one. A quote written twice
does not close it. -/
def untilQuote (quote : Char) : Matcher
  | c :: d :: rest =>
    if c = quote then
      if d = quote then (untilQuote quote rest).map fun (a, r) => (c :: d :: a, r)
      else some ([c], d :: rest)
    else (untilQuote quote (d :: rest)).map fun (a, r) => (c :: a, r)
  | [c] => if c = quote then some ([c], []) else none
  | [] => none

def quotedText (quote : Char) : Matcher :=
  seq (mark [quote]) (untilQuote quote)

/-- The literals in the order in which they are looked for. -/
def literalMatchers : List (Kind × Matcher) :=
  [(.null, word ["null"]),
   (.boolean, word ["true", "false"]),
   (.real, whole (seq digits realTail)),
   (.long, whole (seq digits (oneOf ['l', 'L']))),
   (.integer, whole digits),
   (.quoted '\'', quotedText '\''),
   (.quoted '"', quotedText '"')]

def literal (cs : List Char) : Option (Kind × List Char × List Char) :=
  literalMatchers.findSome? fun (kind, m) => (m cs).map (kind, ·)

end Lexeme

end HostExpr
