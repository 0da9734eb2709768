/-!
Decimal texts of integers.

`integerText` writes a minus sign and digits; `readInteger` also takes a plus sign and leading
zeros. Reading undoes writing: `readInteger_integerText`.
-/

namespace HostExpr.Decimal

/-- The characters of an integer: its digits, after a minus sign if it is negative. -/
def integerChars (i : Int) : List Char :=
  if i < 0 then '-' :: Nat.toDigits 10 i.natAbs else Nat.toDigits 10 i.natAbs

def integerText (i : Int) : String :=
  String.ofList (integerChars i)

/-- The natural number that a nonempty run of digits denotes. -/
def readDigits (cs : List Char) : Option Nat :=
  if cs ≠ [] ∧ cs.all Char.isDigit then some (Nat.ofDigitChars 10 cs 0) else none

/-- Reads an optional sign and digits. -/
def readInteger : List Char → Option Int
  | '-' :: cs => (readDigits cs).map fun n : Nat => -(n : Int)
  | '+' :: cs => (readDigits cs).map fun n : Nat => (n : Int)
  | cs => (readDigits cs).map fun n : Nat => (n : Int)

/-- Reading the digits of a natural number gives it back. -/
theorem readDigits_toDigits (n : Nat) : readDigits (Nat.toDigits 10 n) = some n := by
  have digits : (Nat.toDigits 10 n).all Char.isDigit = true :=
    List.all_eq_true.2 fun c mem => Nat.isDigit_of_mem_toDigits (by decide) (by decide) mem
  simp [readDigits, Nat.toDigits_ne_nil, digits, Nat.ofDigitChars_ten_toDigits]

/-- A text that starts with a digit is read as digits alone. -/
theorem readInteger_of_isDigit {c : Char} {cs : List Char} (h : c.isDigit) :
    readInteger (c :: cs) = (readDigits (c :: cs)).map fun n : Nat => (n : Int) := by
  unfold readInteger
  split
  · next heq => cases heq; exact absurd h (by decide)
  · next heq => cases heq; exact absurd h (by decide)
  · rfl

/-- Reading the characters of an integer gives it back. -/
theorem readInteger_integerChars (i : Int) : readInteger (integerChars i) = some i := by
  unfold integerChars
  split
  · next neg =>
    have value : -(i.natAbs : Int) = i := by omega
    simp only [readInteger, readDigits_toDigits, Option.map_some, value]
  · next nonneg =>
    match h : Nat.toDigits 10 i.natAbs with
    | [] => exact absurd h Nat.toDigits_ne_nil
    | c :: cs =>
      have digit : c.isDigit :=
        Nat.isDigit_of_mem_toDigits (b := 10) (n := i.natAbs) (by decide) (by decide) (by simp [h])
      have value : (i.natAbs : Int) = i := by omega
      rw [readInteger_of_isDigit digit, ← h, readDigits_toDigits, Option.map_some, value]

/-- Reading the text of an integer gives it back. -/
theorem readInteger_integerText (i : Int) : readInteger (integerText i).toList = some i := by
  simp [integerText, readInteger_integerChars]

end HostExpr.Decimal
