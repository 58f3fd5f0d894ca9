/-!
# Exact readings of binary64 numbers

A finite binary64 number is the rational `± mantissa · 2 ^ exponent`, and everything that turns
such a number into an integer, an index or an order is computed on that rational, without a second
rounding.

* `Dyad` and `dyad?`: the rational a finite number stands for.
* `Dyad.floor`, `Dyad.ceil`, `Dyad.round`: the neighbouring integers; a half goes away from zero.
* `ofCount`: the number nearest to a natural number.
* `patternKey`, `orderKey`: the position of a number in the total order, in which `-0` comes before
  `0` and the value that is not a number comes last.
* `lesser`, `greater`: the smaller and the larger of two numbers, skipping what is not a number.
-/

namespace LoadBench.Binary64

/-! ## Exact values -/

/-- The rational `± mantissa · 2 ^ exponent`; the sign is kept apart so that `-0` is a value. -/
structure Dyad where
  negative : Bool
  mantissa : Nat
  exponent : Int
deriving DecidableEq, Repr

open Float.Model in
/-- The rational that a finite number stands for; infinities and what is not a number have none. -/
def dyad? (x : Float) : Option Dyad :=
  match x.toModel.unpack with
  | .finite s m e _ => some ⟨s == .negative, m, e⟩
  | .zero s => some ⟨s == .negative, 0, 0⟩
  | .infinity _ => none
  | .notANumber => none

/-- A sign bit is set: true of `-0` and of negative infinity, false of what is not a number. -/
def isNegative (x : Float) : Bool := decide (Nat.pow 2 63 ≤ x.toBits.toNat)

namespace Dyad

/-- The integer part of the magnitude. -/
def whole (d : Dyad) : Nat :=
  if 0 ≤ d.exponent then d.mantissa <<< d.exponent.toNat else d.mantissa >>> (-d.exponent).toNat

/-- The magnitude is an integer. -/
def isWhole (d : Dyad) : Bool :=
  0 ≤ d.exponent || d.mantissa % Nat.pow 2 (-d.exponent).toNat == 0

/-- The least integer that is no smaller than the magnitude. -/
def wholeUp (d : Dyad) : Nat := if d.isWhole then d.whole else d.whole + 1

/-- The integer nearest to the magnitude; a half goes up. -/
def wholeNear (d : Dyad) : Nat :=
  if 0 ≤ d.exponent then d.mantissa <<< d.exponent.toNat
  else (d.mantissa + Nat.pow 2 ((-d.exponent).toNat - 1)) >>> (-d.exponent).toNat

/-- The integer nearest to the magnitude; a half goes to the even neighbour. -/
def wholeEven (d : Dyad) : Nat :=
  let near := d.wholeNear
  let unit := Nat.pow 2 (-d.exponent).toNat
  let isHalf := d.exponent < 0 && 2 * (d.mantissa % unit) == unit
  if isHalf && near % 2 == 1 then near - 1 else near

/-- A magnitude with the sign of the number. -/
def signed (d : Dyad) (n : Nat) : Int := if d.negative then -(n : Int) else n

/-- The integer part: the fraction is dropped. -/
def trunc (d : Dyad) : Int := d.signed d.whole

/-- The greatest integer that is no larger than the number. -/
def floor (d : Dyad) : Int := d.signed (if d.negative then d.wholeUp else d.whole)

/-- The least integer that is no smaller than the number. -/
def ceil (d : Dyad) : Int := d.signed (if d.negative then d.whole else d.wholeUp)

/-- The nearest integer; a half goes away from zero. -/
def round (d : Dyad) : Int := d.signed d.wholeNear

/-- The exact product with a natural number. -/
def scale (d : Dyad) (n : Nat) : Dyad := { d with mantissa := d.mantissa * n }

end Dyad

/-- The number nearest to a natural number. -/
def ofCount (n : Nat) : Float := Float.ofNat n

/-! ## Order -/

/-- The position of a pattern of bits in the total order: patterns below the sign bit count up from
    `0`, those above it down from `-1`. -/
def patternKey (pattern : UInt64) : Int :=
  let bits := pattern.toNat
  let half := Nat.pow 2 63
  if bits < half then bits else -1 - ((bits - half : Nat) : Int)

/-- The position of a number in the total order, which is that of its bits: what is not a number
    comes after infinity. -/
def orderKey (x : Float) : Int := patternKey x.toBits

/-- The smaller of two numbers; of equal ones the first, and of one number and something that is
    none the number. -/
def lesser (x y : Float) : Float :=
  if x.isNaN then y else if y < x then y else x

/-- The larger of two numbers; of equal ones the first, and of one number and something that is
    none the number. -/
def greater (x y : Float) : Float :=
  if x.isNaN then y else if x < y then y else x

/-- Positive infinity. -/
def infinity : Float := Float.ofBits 0x7FF0000000000000

/-- Negative infinity. -/
def negInfinity : Float := Float.ofBits 0xFFF0000000000000

/-- The value that is not a number. -/
def notANumber : Float := Float.ofBits 0x7FF8000000000000

/-- Zero with a negative sign, which is the sum of nothing. -/
def negZero : Float := Float.ofBits 0x8000000000000000

end LoadBench.Binary64
