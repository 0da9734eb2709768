import HostExpr.Decimal.Integer
import HostExpr.Decimal.Shortest

/-!
Texts of floating point numbers: writing them in a style, and reading them exactly.

A `RealStyle` says which magnitudes are written without an exponent and whether an integral number
keeps a point. `RealStyle.plain` is the style of values in messages and in string concatenation,
`RealStyle.detailed` that of inspected values. `Floating.read` takes a sign, digits with an
optional point and exponent, or the name of an infinity or of `nan`, and rounds once.
-/

namespace HostExpr

-- Powers are those of natural numbers, whatever else is in scope.
attribute [local instance] instPowNat

structure RealStyle where
  /-- Whether a number whose first digit has weight `10 ^ k` is written without an exponent. -/
  positional : Int → Bool
  /-- Whether an integral number that is written without an exponent ends in `.0`. -/
  keepsPoint : Bool

namespace RealStyle

/-- Never an exponent, and no point in integral numbers. -/
def plain : RealStyle := ⟨fun _ => true, false⟩

/-- An exponent below `10 ^ -4` and from `10 ^ 16` on; otherwise always a point. -/
def detailed : RealStyle := ⟨fun k => -4 ≤ k && k < 16, true⟩

private def zeros (n : Nat) : List Char :=
  List.replicate n '0'

/-- The characters of `digits · 10 ^ exponent`. -/
def decimalChars (style : RealStyle) (d : Decimal) : List Char :=
  let ds := Nat.toDigits 10 d.digits
  let point : Int := ds.length + d.exponent
  if style.positional (point - 1) then
    if 0 ≤ d.exponent then
      ds ++ zeros d.exponent.toNat ++ (if style.keepsPoint then ['.', '0'] else [])
    else if 0 < point then ds.take point.toNat ++ '.' :: ds.drop point.toNat
    else '0' :: '.' :: zeros (-point).toNat ++ ds
  else
    ds.take 1 ++ (if ds.length = 1 then [] else '.' :: ds.drop 1) ++
      'e' :: Decimal.integerChars (point - 1)

end RealStyle

namespace Floating

variable {f : FloatFormat}

def text (style : RealStyle) : Floating f → String
  | .nan => "NaN"
  | .infinite s => if s then "-inf" else "inf"
  | .finite s m e _ =>
    let magnitude :=
      if m = 0 then '0' :: (if style.keepsPoint then ['.', '0'] else [])
      else style.decimalChars (Decimal.shortest f m e)
    String.ofList (if s then '-' :: magnitude else magnitude)

/-- The number nearest to `± digits · 10 ^ exponent`, where `count` is the number of digits. Far
outside the format's range the answer is known without the power of ten. -/
def ofDecimal (negative : Bool) (digits : Nat) (count : Nat) (exponent : Int) : Floating f :=
  if digits = 0 then zero negative
  else if f.greatest + f.fractionBits + 1 < exponent then .infinite negative
  else if exponent + count < f.least - 1 then zero negative
  else roundQuotient negative (digits * Nat.pow 10 exponent.toNat) (Nat.pow 10 (-exponent).toNat)

/-- Reads digits, a point and digits, and an exponent; the point and the exponent may be absent,
and one side of the point may be empty. -/
def readUnsigned (negative : Bool) (cs : List Char) : Option (Floating f) :=
  let whole := cs.takeWhile Char.isDigit
  let afterWhole := cs.dropWhile Char.isDigit
  let (fraction, afterFraction) :=
    match afterWhole with
    | '.' :: rest => (rest.takeWhile Char.isDigit, rest.dropWhile Char.isDigit)
    | rest => ([], rest)
  let number (exponent : Int) : Option (Floating f) :=
    let digits := whole ++ fraction
    if digits = [] then none
    else some (ofDecimal negative (Nat.ofDigitChars 10 digits 0) digits.length
      (exponent - fraction.length))
  match afterFraction with
  | [] => number 0
  | c :: rest => if c = 'e' ∨ c = 'E' then (Decimal.readInteger rest).bind number else none

/-- Reads an unsigned number or the name of a special one, in any letter case. -/
def readMagnitude (negative : Bool) (cs : List Char) : Option (Floating f) :=
  let name := cs.map Char.toLower
  if name = "nan".toList then some .nan
  else if name = "inf".toList ∨ name = "infinity".toList then some (.infinite negative)
  else readUnsigned negative cs

def read : List Char → Option (Floating f)
  | '-' :: cs => readMagnitude true cs
  | '+' :: cs => readMagnitude false cs
  | cs => readMagnitude false cs

end Floating

end HostExpr
