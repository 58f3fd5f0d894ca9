import LoadBench.Binary64

/-!
# The shortest decimal that reads back

Every positive binary64 number is the rounding of an interval of reals. The decimal written for it
is the one with the fewest digits inside that interval, and of several the nearest to the number.

* `readsBack`: a decimal lies in the interval, compared in exact integer arithmetic.
* `shortest`: the first decimal grid with a point inside, from one digit up.
-/

namespace LoadBench

open Binary64 (Dyad)

/-- The decimal `digits · 10 ^ exponent`. -/
structure Decimal where
  digits : Nat
  exponent : Int
deriving DecidableEq, Repr

namespace Decimal

/-- Which of two equally near decimals is written. -/
inductive Tie
  /-- The one whose last digit is even. -/
  | even
  /-- The larger one. -/
  | up
deriving DecidableEq, Repr

/-! ## The interval of a number -/

/-- Compares `a · 10 ^ i` with `n · 2 ^ j`, exactly. -/
def compareScaled (a : Nat) (i : Int) (n : Nat) (j : Int) : Ordering :=
  compare (a * Nat.pow 10 i.toNat * Nat.pow 2 (-j).toNat)
    (n * Nat.pow 2 j.toNat * Nat.pow 10 (-i).toNat)

/-- The gap below a power of two is half the gap above it, except at the smallest exponent. -/
def narrowBelow (d : Dyad) : Bool := d.mantissa == Nat.pow 2 52 && -1074 < d.exponent

/-- The decimal lies among the reals that round to the number; the ends belong to the interval
    exactly when the mantissa is even. -/
def readsBack (d : Dyad) (c : Decimal) : Bool :=
  let low := if narrowBelow d then 4 * d.mantissa - 1 else 4 * d.mantissa - 2
  let high := 4 * d.mantissa + 2
  let closed := d.mantissa % 2 == 0
  let atLow := compareScaled c.digits c.exponent low (d.exponent - 2)
  let atHigh := compareScaled c.digits c.exponent high (d.exponent - 2)
  (atLow == .gt || (closed && atLow == .eq)) && (atHigh == .lt || (closed && atHigh == .eq))

/-! ## The search -/

/-- The least `k` with `mantissa · 2 ^ exponent < 10 ^ k`: an estimate from the binary logarithm,
    raised while it is too small. -/
def magnitude (d : Dyad) : Int :=
  let guess := Int.fdiv ((d.mantissa.log2 + d.exponent) * 30103) 100000
  if compareScaled 1 guess d.mantissa d.exponent == .gt then guess
  else if compareScaled 1 (guess + 1) d.mantissa d.exponent == .gt then guess + 1
  else guess + 2

/-- The point of the grid `10 ^ g` at or below the number. -/
def gridFloor (d : Dyad) (g : Int) : Nat :=
  (d.mantissa * Nat.pow 2 d.exponent.toNat * Nat.pow 10 (-g).toNat)
    / (Nat.pow 2 (-d.exponent).toNat * Nat.pow 10 g.toNat)

/-- The point of the grid `10 ^ g` that stands for the number, if one of the number's two
    neighbours on the grid reads back: of two the nearer, and on a tie as `tie` says. -/
def gridPoint? (tie : Tie) (d : Dyad) (g : Int) : Option Decimal :=
  let c := gridFloor d g
  match readsBack d ⟨c, g⟩, readsBack d ⟨c + 1, g⟩ with
  | true, true =>
    match compareScaled (2 * c + 1) g (2 * d.mantissa) d.exponent with
    | .gt => some ⟨c, g⟩
    | .lt => some ⟨c + 1, g⟩
    | .eq => match tie with
      | .even => some ⟨c + c % 2, g⟩
      | .up => some ⟨c + 1, g⟩
  | true, false => some ⟨c, g⟩
  | false, true => some ⟨c + 1, g⟩
  | false, false => none

/-- Moves trailing zeros of the digits into the exponent; at most `fuel` of them. -/
def stripZeros : Nat → Decimal → Decimal
  | 0, c => c
  | fuel + 1, c =>
    if c.digits % 10 == 0 && c.digits != 0 then stripZeros fuel ⟨c.digits / 10, c.exponent + 1⟩
    else c

/-- The exact value as a decimal. -/
def ofDyad (d : Dyad) : Decimal :=
  if 0 ≤ d.exponent then ⟨d.mantissa * Nat.pow 2 d.exponent.toNat, 0⟩
  else ⟨d.mantissa * Nat.pow 5 (-d.exponent).toNat, d.exponent⟩

/-- The shortest decimal that reads back to the magnitude of a number. -/
def shortest (tie : Tie) (d : Dyad) : Decimal :=
  if d.mantissa == 0 then ⟨0, 0⟩
  else
    let k := magnitude d
    let found := (List.range 17).findSome? fun (n : Nat) => gridPoint? tie d (k - (n + 1))
    let c := found.getD (ofDyad d)
    stripZeros (c.digits.log2 + 1) c

end Decimal

end LoadBench
