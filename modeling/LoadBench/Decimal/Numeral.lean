import LoadBench.Binary64

/-!
# Numbers read from text

A numeral is a sign, digits, a fraction and an exponent; its value is the binary64 number nearest to
the decimal it spells, a half going to the even neighbour.

* `Numeral.value`: that number.
* `Numeral.parse?`: a free-standing numeral, in which either side of the point may be empty.
* `parseNumber?`: a numeral, an infinity, or what is not a number.
-/

namespace LoadBench

/-- A decimal numeral in parts: `± whole . fraction e exponent`. -/
structure Numeral where
  negative : Bool
  whole : List Char
  fraction : List Char
  exponent : Int
deriving DecidableEq, Repr

/-- The natural number that decimal digits spell. -/
def natOfDigits (ds : List Char) : Nat :=
  ds.foldl (fun n c => 10 * n + (c.toNat - '0'.toNat)) 0

namespace Numeral

/-- The binary64 number nearest to the decimal; beyond the largest one it is an infinity. -/
def value (n : Numeral) : Float :=
  let digits := natOfDigits (n.whole ++ n.fraction)
  let scale := n.exponent - n.fraction.length
  let magnitude := Float.ofScientific digits (decide (scale < 0)) scale.natAbs
  if n.negative then -magnitude else magnitude

/-- Splits off a leading sign. -/
def takeSign : List Char → Bool × List Char
  | '-' :: cs => (true, cs)
  | '+' :: cs => (false, cs)
  | cs => (false, cs)

/-- The exponent part: empty, or `e`, an optional sign, and digits up to the end. -/
def parseExponent? : List Char → Option Int
  | [] => some 0
  | c :: cs =>
    if c == 'e' || c == 'E' then
      let (negative, ds) := takeSign cs
      if ds.isEmpty || !ds.all Char.isDigit then none
      else some (if negative then -(natOfDigits ds : Int) else natOfDigits ds)
    else none

/-- A numeral without its sign: digits on at least one side of an optional point, then an optional
    exponent. -/
def parseUnsigned? (negative : Bool) (cs : List Char) : Option Numeral := do
  let whole := cs.takeWhile Char.isDigit
  let rest := cs.dropWhile Char.isDigit
  let (fraction, rest) := match rest with
    | '.' :: r => (r.takeWhile Char.isDigit, r.dropWhile Char.isDigit)
    | r => ([], r)
  if whole.isEmpty && fraction.isEmpty then none
  else
    let exponent ← parseExponent? rest
    some ⟨negative, whole, fraction, exponent⟩

/-- A signed numeral. -/
def parse? (cs : List Char) : Option Numeral :=
  let (negative, rest) := takeSign cs
  parseUnsigned? negative rest

end Numeral

/-- The number a text spells: an optional sign, then a numeral or one of the words for infinity and
    for what is not a number, in any case. -/
def parseNumber? (text : String) : Option Float :=
  let (negative, rest) := Numeral.takeSign text.toList
  let word := String.ofList (rest.map Char.toLower)
  if word == "inf" || word == "infinity" then
    some (if negative then Binary64.negInfinity else Binary64.infinity)
  else if word == "nan" then some Binary64.notANumber
  else (Numeral.parseUnsigned? negative rest).map Numeral.value

end LoadBench
