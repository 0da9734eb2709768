/-!
The part of JSON that configurations are written in: all of it but numbers, which no setting takes.

It stands for the general reader of JSON with which configurations are read, so that they can be
read from the texts that hosts give. `Config.parse` is its only user. What is proved of evaluations
is proved for all settings, wherever they come from.

`Json.ofText?` reads a whole text. Repeated keys are kept, in order, for the reader of the
configuration to refuse.
-/

namespace HostExpr

/-- A JSON value without numbers in it. -/
inductive Json where
  | null
  | boolean (b : Bool)
  | string (s : String)
  | array (items : List Json)
  | object (fields : List (String × Json))

namespace Json

abbrev Reader (α : Type) := List Char → Option (α × List Char)

/-- The text after white space. -/
def skip (cs : List Char) : List Char :=
  cs.dropWhile fun c => c = ' ' || c = '\t' || c = '\n' || c = '\r'

/-- The text after a character and white space, if it starts with that character. -/
def expect (char : Char) : List Char → Option (List Char)
  | c :: rest => if c = char then some (skip rest) else none
  | [] => none

def hexDigit? (c : Char) : Option Nat :=
  if c.isDigit then some (c.toNat - '0'.toNat)
  else if 'a' ≤ c ∧ c ≤ 'f' then some (c.toNat - 'a'.toNat + 10)
  else if 'A' ≤ c ∧ c ≤ 'F' then some (c.toNat - 'A'.toNat + 10)
  else none

def hexUnit : Reader Nat
  | a :: b :: c :: d :: rest => do
    let a ← hexDigit? a
    let b ← hexDigit? b
    let c ← hexDigit? c
    let d ← hexDigit? d
    return (((a * 16 + b) * 16 + c) * 16 + d, rest)
  | _ => none

/-- The character of a code unit, or of two that form a pair. A unit that needs a partner and has
none is refused. -/
def codeEscape : Reader Char := fun cs => do
  let (unit, rest) ← hexUnit cs
  if 0xdc00 ≤ unit ∧ unit < 0xe000 then none
  else if 0xd800 ≤ unit ∧ unit < 0xdc00 then
    match rest with
    | '\\' :: 'u' :: more => do
      let (low, rest) ← hexUnit more
      if 0xdc00 ≤ low ∧ low < 0xe000 then
        return (Char.ofNat (0x10000 + (unit - 0xd800) * 0x400 + (low - 0xdc00)), rest)
      else none
    | _ => none
  else return (Char.ofNat unit, rest)

def escape : Reader Char
  | 'u' :: rest => codeEscape rest
  | c :: rest =>
    let plain := [('\x22', '\x22'), ('\\', '\\'), ('/', '/'), ('b', '\x08'), ('f', '\x0c'),
      ('n', '\n'), ('r', '\r'), ('t', '\t')]
    (plain.lookup c).map fun found => (found, rest)
  | [] => none

/-- The characters of a string up to its closing quote, in at most so many steps. -/
def stringChars : Nat → Reader (List Char)
  | 0, _ => none
  | _, [] => none
  | steps + 1, c :: rest =>
    if c = '\x22' then some ([], rest)
    else if c = '\\' then do
      let (found, rest) ← escape rest
      let (more, rest) ← stringChars steps rest
      return (found :: more, rest)
    else if c.toNat < 0x20 then none
    else do
      let (more, rest) ← stringChars steps rest
      return (c :: more, rest)

def quoted : Reader String
  | '\x22' :: rest => do
    let (chars, rest) ← stringChars (rest.length + 1) rest
    return (String.ofList chars, skip rest)
  | _ => none

/-- Items between commas, in at most so many steps, and the bracket that closes them. -/
def itemsUntil {α : Type} (item : Reader α) (close : Char) : Nat → Reader (List α)
  | 0, _ => none
  | steps + 1, cs => do
    let (first, rest) ← item cs
    match expect ',' rest with
    | some rest => do
      let (more, rest) ← itemsUntil item close steps rest
      return (first :: more, rest)
    | none => return ([first], ← expect close rest)

def bracketed {α : Type} (item : Reader α) (close : Char) : Reader (List α) := fun cs =>
  match expect close cs with
  | some rest => some ([], rest)
  | none => itemsUntil item close (cs.length + 1) cs

def field (nested : Reader Json) : Reader (String × Json) := fun cs => do
  let (key, rest) ← quoted cs
  let rest ← expect ':' rest
  let (value, rest) ← nested rest
  return ((key, value), rest)

def word (expected : String) (value : Json) : Reader Json := fun cs =>
  if expected.toList.isPrefixOf cs then some (value, skip (cs.drop expected.length)) else none

/-- A value and the white space after it, nested up to a depth. -/
def valueUpTo : Nat → Reader Json
  | 0, _ => none
  | depth + 1, cs =>
    match cs with
    | '\x22' :: _ => (quoted cs).map fun (s, rest) => (.string s, rest)
    | '[' :: rest =>
      (bracketed (valueUpTo depth) ']' (skip rest)).map fun (items, rest) => (.array items, rest)
    | '\x7b' :: rest =>
      (bracketed (field (valueUpTo depth)) '\x7d' (skip rest)).map
        fun (fields, rest) => (.object fields, rest)
    | _ =>
      (word "null" .null cs).orElse fun _ =>
        (word "true" (.boolean true) cs).orElse fun _ => word "false" (.boolean false) cs

def ofText? (text : String) : Option Json :=
  let cs := skip text.toList
  match valueUpTo (cs.length + 1) cs with
  | some (value, []) => some value
  | _ => none

end Json

end HostExpr
