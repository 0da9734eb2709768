import HostExpr.Floating.Basic

/-!
The interchange encoding of binary floating point numbers: from the most significant bit, a sign, a
biased exponent and the fraction. The largest biased exponent is kept for infinities and `nan`.
-/

namespace HostExpr.Floating

-- Powers are those of natural numbers, whatever else is in scope.
attribute [local instance] instPowNat

variable {f : FloatFormat}

/-- The biased exponent of infinities and `nan`. -/
def reservedExponent (f : FloatFormat) : Nat :=
  f.span + 2

def signWeight (f : FloatFormat) : Nat :=
  (reservedExponent f + 1) * Nat.pow 2 f.fractionBits

/-- The number that a bit pattern stands for. Every pattern of `nan` gives the one `nan`. -/
def ofBits (bits : Nat) : Floating f :=
  let fraction := bits % Nat.pow 2 f.fractionBits
  let biased := bits / Nat.pow 2 f.fractionBits % (reservedExponent f + 1)
  let negative := bits / signWeight f % 2 = 1
  if biased = reservedExponent f then
    if fraction = 0 then .infinite negative else .nan
  else if biased = 0 then ofRounded negative fraction f.least
  else ofRounded negative (fraction + Nat.pow 2 f.fractionBits) (f.least + (biased - 1))

/-- The bit pattern of a number; `nan` is written with the leading fraction bit alone. -/
def toBits : Floating f → Nat
  | .nan => reservedExponent f * Nat.pow 2 f.fractionBits + Nat.pow 2 (f.fractionBits - 1)
  | .infinite s => (if s then signWeight f else 0) + reservedExponent f * Nat.pow 2 f.fractionBits
  | .finite s m e _ =>
    (if s then signWeight f else 0) + (e - f.least).toNat * Nat.pow 2 f.fractionBits + m

end HostExpr.Floating
