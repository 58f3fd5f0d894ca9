import LoadBench.Decimal.Numeral
import LoadBench.Json.Quoted

/-!
# What plain words mean

A plain word of a document may stand for nothing, for a truth value or for a number. Whole numbers
may be written in base ten without zeros in front, or in base sixteen, eight or two behind a mark.

* `Word.isNull`, `Word.flag?`, `Word.natural?`, `Word.real?`: the readings.
* `Word.isTaken`: a text that would not be read back as a text if it were written plainly.
-/

namespace LoadBench.Yaml.Word

/-- The word stands for nothing. -/
def isNull (s : String) : Bool := s == "null" || s == "Null" || s == "NULL" || s == "~"

/-- The truth value of a word. -/
def flag? (s : String) : Option Bool :=
  if s == "true" || s == "True" || s == "TRUE" then some true
  else if s == "false" || s == "False" || s == "FALSE" then some false
  else none

/-- The number that digits of a base spell. -/
def digits? (base : Nat) (cs : List Char) : Option Nat :=
  if cs.isEmpty then none
  else
    cs.foldlM (fun n c => do
      let d ← Json.Quoted.hexValue? c
      if d < base then some (base * n + d) else none) 0

/-- The number behind a mark for its base; without one, none. -/
def marked? : List Char → Option (Option Nat)
  | '0' :: 'x' :: cs => some (digits? 16 cs)
  | '0' :: 'o' :: cs => some (digits? 8 cs)
  | '0' :: 'b' :: cs => some (digits? 2 cs)
  | _ => none

/-- A word without a plus sign in front. -/
def withoutPlus : List Char → List Char
  | '+' :: cs => cs
  | cs => cs

/-- The word consists of digits and has a zero in front of others; it is no whole number. -/
def hasLeadingZero (s : String) : Bool :=
  let (_, cs) := Numeral.takeSign s.toList
  1 < cs.length && cs.head? == some '0' && cs.all Char.isDigit

/-- The natural number of a word. -/
def natural? (s : String) : Option Nat :=
  let cs := withoutPlus s.toList
  match marked? cs with
  | some n => n
  | none => if hasLeadingZero s then none else digits? 10 cs

/-- The word for an infinity, without its sign. -/
def isInfinity (cs : List Char) : Bool :=
  cs == ".inf".toList || cs == ".Inf".toList || cs == ".INF".toList

/-- The number of a word. -/
def real? (s : String) : Option Float :=
  let cs := s.toList
  if isInfinity (withoutPlus cs) then some Binary64.infinity
  else if cs.head? == some '-' && isInfinity cs.tail then some Binary64.negInfinity
  else if s == ".nan" || s == ".NaN" || s == ".NAN" then some Binary64.notANumber
  else
    match cs with
    | '+' :: '+' :: _ | '+' :: '-' :: _ => none
    | _ => ((Numeral.parse? cs).map Numeral.value).filter Float.isFinite

/-- The word is a whole number of at most 128 bits behind a mark for its base. -/
def isMarkedInteger (s : String) : Bool :=
  match s.toList with
  | '-' :: cs => ((marked? cs).bind id).any (· ≤ Nat.pow 2 127)
  | cs => ((marked? (withoutPlus cs)).bind id).any (· < Nat.pow 2 128)

/-- A text that means something else if it is written plainly. -/
def isTaken (s : String) : Bool :=
  s.isEmpty || isNull s || (flag? s).isSome || (real? s).isSome || isMarkedInteger s
    || hasLeadingZero s

end LoadBench.Yaml.Word
