import HostExpr.Floating.Basic

/-!
Arithmetic on binary floating point numbers: the exact result, rounded to nearest.

Each operation first settles `nan`, infinities and the sign of a zero result, and leaves one exact
quotient to `Floating.roundScaled` or `Floating.roundQuotient`. The remainder needs no rounding: it
is computed on the common scale of its operands and is always representable.
-/

namespace HostExpr.Floating

-- Powers are those of natural numbers, whatever else is in scope.
attribute [local instance] instPowNat

variable {f : FloatFormat}

/-- The sum. A zero sum of numbers that are not both negative zeros is positive. -/
def add : Floating f → Floating f → Floating f
  | .nan, _ => .nan
  | _, .nan => .nan
  | .infinite s, .infinite t => if s = t then .infinite s else .nan
  | .infinite s, .finite .. => .infinite s
  | .finite .., .infinite t => .infinite t
  | .finite s m e _, .finite t n d _ =>
    let low := min e d
    let sum := signed s (m * Nat.pow 2 (e - low).toNat) + signed t (n * Nat.pow 2 (d - low).toNat)
    if sum = 0 then zero (s && t && m = 0)
    else roundScaled (sum < 0) sum.natAbs low

def sub (x y : Floating f) : Floating f :=
  x.add y.neg

def mul : Floating f → Floating f → Floating f
  | .nan, _ => .nan
  | _, .nan => .nan
  | .infinite s, .infinite t => .infinite (s != t)
  | .infinite s, .finite t n _ _ => if n = 0 then .nan else .infinite (s != t)
  | .finite s m _ _, .infinite t => if m = 0 then .nan else .infinite (s != t)
  | .finite s m e _, .finite t n d _ => roundScaled (s != t) (m * n) (e + d)

/-- The quotient. A nonzero number divided by a zero is infinite. -/
def div : Floating f → Floating f → Floating f
  | .nan, _ => .nan
  | _, .nan => .nan
  | .infinite _, .infinite _ => .nan
  | .infinite s, .finite t _ _ _ => .infinite (s != t)
  | .finite s _ _ _, .infinite t => zero (s != t)
  | .finite s m e _, .finite t n d _ =>
    if n = 0 then if m = 0 then .nan else .infinite (s != t)
    else roundQuotient (s != t) (m * Nat.pow 2 (e - d).toNat) (n * Nat.pow 2 (d - e).toNat)

/-- The remainder of the division that truncates toward zero; it has the sign of the dividend. -/
def rem : Floating f → Floating f → Floating f
  | .nan, _ => .nan
  | _, .nan => .nan
  | .infinite _, _ => .nan
  | x, .infinite _ => x
  | .finite s m e _, .finite _ n d _ =>
    if n = 0 then .nan
    else
      let low := min e d
      roundScaled s (m * Nat.pow 2 (e - low).toNat % (n * Nat.pow 2 (d - low).toNat)) low

end HostExpr.Floating
