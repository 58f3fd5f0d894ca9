import LoadBench.Decimal.Shortest

/-!
# How numbers are written

The digits of a number are fixed by `Decimal.shortest` or by a number of places; how they are laid
out is a decision of the format and stands in a `NumberFormat`.

* `NumberFormat.render`: the shortest digits under a format.
* `NumberFormat.display`, `NumberFormat.document`: the two formats of this library.
* `fixed`: a set number of places of the exact value, a half going to the even neighbour.
-/

namespace LoadBench

open Binary64 (Dyad dyad? isNegative)

/-! ## Digits -/

/-- The decimal digits of a natural number. -/
def digitsOf (n : Nat) : List Char := Nat.toDigits 10 n

/-- The digits of a number, with zeros in front up to a width. -/
def zeroPadded (width n : Nat) : List Char :=
  let ds := digitsOf n
  List.replicate (width - ds.length) '0' ++ ds

/-! ## Shortest digits under a format -/

/-- The decisions of a number format that do not change which number is read back. -/
structure NumberFormat where
  /-- Numbers whose leading digit has this exponent are written without an exponent. -/
  positional : Int → Bool
  /-- A whole number is written with `.0`. -/
  pointZero : Bool
  tie : Decimal.Tie
  notANumber : String
  infinity : String

namespace NumberFormat

/-- Digits with the point set: behind, inside or in front of them. -/
def positionalText (f : NumberFormat) (c : Decimal) : List Char :=
  let ds := digitsOf c.digits
  if 0 ≤ c.exponent then
    ds ++ List.replicate c.exponent.toNat '0' ++ (if f.pointZero then ['.', '0'] else [])
  else
    let places := (-c.exponent).toNat
    if places < ds.length then
      ds.take (ds.length - places) ++ '.' :: ds.drop (ds.length - places)
    else
      '0' :: '.' :: List.replicate (places - ds.length) '0' ++ ds

/-- Digits with the point behind the first one, and the exponent of that digit. -/
def exponentText (c : Decimal) (lead : Int) : List Char :=
  let ds := digitsOf c.digits
  let mantissa := match ds with
    | [] => []
    | [d] => [d]
    | d :: rest => d :: '.' :: rest
  mantissa ++ 'e' :: (if lead < 0 then ['-'] else []) ++ digitsOf lead.natAbs

/-- The text of a number: sign, shortest digits, layout. -/
def render (f : NumberFormat) (x : Float) : String :=
  match dyad? x with
  | none => if x.isNaN then f.notANumber else if isNegative x then "-" ++ f.infinity else f.infinity
  | some d =>
    let c := Decimal.shortest f.tie d
    let lead := c.exponent + (digitsOf c.digits).length - 1
    let body :=
      if d.mantissa == 0 || f.positional lead then positionalText f c else exponentText c lead
    String.ofList (if d.negative then '-' :: body else body)

/-- Plain numbers, as in query parameters: never an exponent, whole numbers without a point. -/
def display : NumberFormat where
  positional := fun _ => true
  pointZero := false
  tie := .up
  notANumber := "NaN"
  infinity := "inf"

/-- Numbers in documents: always a point or an exponent, positional from `1e-5` up to `1e16`. -/
def document : NumberFormat where
  positional := fun lead => -5 ≤ lead && lead < 16
  pointZero := true
  tie := .even
  notANumber := ".nan"
  infinity := ".inf"

end NumberFormat

/-! ## A set number of places -/

/-- The number with a set number of places: its exact value, rounded once, a half going to the even
    neighbour; a negative number keeps its sign even where only zeros are left. -/
def fixed (places : Nat) (x : Float) : String :=
  match dyad? x with
  | none => if x.isNaN then "NaN" else if isNegative x then "-inf" else "inf"
  | some d =>
    let ds := zeroPadded (places + 1) (d.scale (Nat.pow 10 places)).wholeEven
    let whole := ds.take (ds.length - places)
    let body := if places == 0 then whole else whole ++ '.' :: ds.drop (ds.length - places)
    String.ofList (if d.negative then '-' :: body else body)

end LoadBench
