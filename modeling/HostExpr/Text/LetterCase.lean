import HostExpr.Text.CaseTable

/-!
Upper and lower case of texts, with the counterparts that are several characters and with the
final form of the Greek sigma.
-/

namespace HostExpr.Text

/-- The counterpart of a character by an expansion, else by a run, else the character itself. -/
private def counterpart (expansions : List (Nat × List Nat)) (runs : List CaseRun) (c : Char) :
    List Char :=
  match expansions.lookup c.toNat with
  | some codes => codes.map Char.ofNat
  | none =>
    match runs.findSome? (·.counterpart? c.toNat) with
    | some code => [Char.ofNat code]
    | none => [c]

def upperChar (c : Char) : List Char :=
  if c.toNat < 0x80 then [c.toUpper] else counterpart upperExpansions upperRuns c

/-- The lower case of a character, apart from its neighbours. -/
def lowerChar (c : Char) : List Char :=
  if c.toNat < 0x80 then [c.toLower] else counterpart lowerExpansions lowerRuns c

/-- Whether the first character that is not case ignorable is a letter with case. -/
def touchesLetter (cs : List Char) : Bool :=
  match cs.dropWhile fun c => inRanges caseIgnorable c.toNat with
  | [] => false
  | c :: _ => inRanges caseLetters c.toNat

/-- The lower case of a text whose preceding characters, last one first, are given. A capital sigma
that ends a word becomes a final sigma. -/
def lowerAfter (before : List Char) : List Char → List Char
  | [] => []
  | c :: rest =>
    let lowered :=
      if c = 'Σ' then
        if touchesLetter before && !touchesLetter rest then ['ς'] else ['σ']
      else lowerChar c
    lowered ++ lowerAfter (c :: before) rest

def toUpper (s : String) : String :=
  String.ofList (s.toList.flatMap upperChar)

def toLower (s : String) : String :=
  String.ofList (lowerAfter [] s.toList)

end HostExpr.Text
