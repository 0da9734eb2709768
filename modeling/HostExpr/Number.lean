import HostExpr.Decimal.Real
import HostExpr.Floating.Arithmetic

/-!
Numbers: integers of two widths and binary floating point numbers of two formats.

The kinds are ordered `int < long < float < double`. `Number.cast` moves a number to a kind by
truncating, saturating, rounding or wrapping as needed. Arithmetic casts both operands to the wider
kind; comparison reads both as 64-bit integers if both are integers, and else as doubles.
-/

namespace HostExpr

inductive NumericKind where
  | int
  | long
  | float
  | double
  deriving DecidableEq

namespace NumericKind

/-- The position of a kind in the order from narrow to wide. -/
def rank : NumericKind → Nat
  | .int => 0
  | .long => 1
  | .float => 2
  | .double => 3

def max (a b : NumericKind) : NumericKind :=
  if b.rank ≤ a.rank then a else b

end NumericKind

inductive Number where
  | int (i : Int32)
  | long (i : Int64)
  | float (x : Single)
  | double (x : Double)
  deriving DecidableEq

/-- A number read at the greatest width of its sort. -/
inductive WideNumber where
  | integral (i : Int64)
  | real (x : Double)
  deriving DecidableEq

namespace WideNumber

/-- The narrow integer: integers wrap, floating point numbers lose their fraction and saturate. -/
def toInt : WideNumber → Int32
  | .integral i => i.toInt32
  | .real x => .ofInt (x.truncateWithin Int32.minValue.toInt Int32.maxValue.toInt)

/-- The wide integer; floating point numbers lose their fraction and saturate. -/
def toLong : WideNumber → Int64
  | .integral i => i
  | .real x => .ofInt (x.truncateWithin Int64.minValue.toInt Int64.maxValue.toInt)

def toSingle : WideNumber → Single
  | .integral i => .ofInt i.toInt
  | .real x => x.cast

def toDouble : WideNumber → Double
  | .integral i => .ofInt i.toInt
  | .real x => x

end WideNumber

namespace Number

def kind : Number → NumericKind
  | .int _ => .int
  | .long _ => .long
  | .float _ => .float
  | .double _ => .double

/-- The number at the greatest width of its sort; this loses nothing. -/
def widen : Number → WideNumber
  | .int i => .integral i.toInt64
  | .long i => .integral i
  | .float x => .real x.cast
  | .double x => .real x

def cast (k : NumericKind) (n : Number) : Number :=
  match k with
  | .int => .int n.widen.toInt
  | .long => .long n.widen.toLong
  | .float => .float n.widen.toSingle
  | .double => .double n.widen.toDouble

def isNan (n : Number) : Bool :=
  match n.widen with
  | .integral _ => false
  | .real x => x.isNan

/-- Equality within one kind; numbers of different kinds differ. -/
def sameKindEqual : Number → Number → Bool
  | .int a, .int b => a = b
  | .long a, .long b => a = b
  | .float a, .float b => a.equal b
  | .double a, .double b => a.equal b
  | _, _ => false

def equal (a b : Number) : Bool :=
  match a.widen, b.widen with
  | .integral x, .integral y => x = y
  | x, y => x.toDouble.equal y.toDouble

/-- The order across kinds, absent if one side is `nan`. -/
def compare (a b : Number) : Option Ordering :=
  match a.widen, b.widen with
  | .integral x, .integral y => some (Ord.compare x.toInt y.toInt)
  | x, y => x.toDouble.compare y.toDouble

/-- The number with its sign turned; the least integers are their own negations. -/
def neg : Number → Number
  | .int i => .int (-i)
  | .long i => .long (-i)
  | .float x => .float x.neg
  | .double x => .double x.neg

def text (style : RealStyle) : Number → String
  | .int i => Decimal.integerText i.toInt
  | .long i => Decimal.integerText i.toInt
  | .float x => x.text style
  | .double x => x.text style

/-- Reads a number of a kind; an integer has to fit. -/
def read (k : NumericKind) (cs : List Char) : Option Number :=
  match k with
  | .int => do
    let i ← Decimal.readInteger cs
    if Int32.minValue.toInt ≤ i ∧ i ≤ Int32.maxValue.toInt then some (.int (Int32.ofInt i))
    else none
  | .long => do
    let i ← Decimal.readInteger cs
    if Int64.minValue.toInt ≤ i ∧ i ≤ Int64.maxValue.toInt then some (.long (Int64.ofInt i))
    else none
  | .float => (Floating.read cs).map .float
  | .double => (Floating.read cs).map .double

end Number

inductive ArithmeticOperator where
  | add
  | subtract
  | multiply
  | divide
  | remainder
  deriving DecidableEq

namespace ArithmeticOperator

def symbol : ArithmeticOperator → String
  | .add => "+"
  | .subtract => "-"
  | .multiply => "*"
  | .divide => "/"
  | .remainder => "%"

/-- The operator on narrow integers, which wraps; there is no division by zero. -/
def onInt (op : ArithmeticOperator) (a b : Int32) : Option Int32 :=
  match op with
  | .add => some (a + b)
  | .subtract => some (a - b)
  | .multiply => some (a * b)
  | .divide => if b = 0 then none else some (a / b)
  | .remainder => if b = 0 then none else some (a % b)

def onLong (op : ArithmeticOperator) (a b : Int64) : Option Int64 :=
  match op with
  | .add => some (a + b)
  | .subtract => some (a - b)
  | .multiply => some (a * b)
  | .divide => if b = 0 then none else some (a / b)
  | .remainder => if b = 0 then none else some (a % b)

def onDouble (op : ArithmeticOperator) (a b : Double) : Double :=
  match op with
  | .add => a.add b
  | .subtract => a.sub b
  | .multiply => a.mul b
  | .divide => a.div b
  | .remainder => a.rem b

/-- The operator on two numbers, at the wider of their kinds. Only an integral division by zero has
no result. Single floats are computed as doubles and rounded back. -/
def onNumbers (op : ArithmeticOperator) (a b : Number) : Option Number :=
  match a.kind.max b.kind with
  | .int => (op.onInt a.widen.toInt b.widen.toInt).map .int
  | .long => (op.onLong a.widen.toLong b.widen.toLong).map .long
  | .float => some (.float (op.onDouble a.widen.toSingle.cast b.widen.toSingle.cast).cast)
  | .double => some (.double (op.onDouble a.widen.toDouble b.widen.toDouble))

end ArithmeticOperator

end HostExpr
