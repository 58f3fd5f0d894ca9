import LoadBench.Counter
import LoadBench.Data
import LoadBench.Decimal.Numeral
import LoadBench.Json.Quoted

/-!
# Reading JSON

A text is first cut into tokens, and the tokens then build one value on a stack of open lists and
records.

* `tokens?`: the tokens of a text; blanks between them are dropped.
* `Open`, `step?`: one token against the stack.
* `parse?`: the value of a text, nested at most `depthLimit` deep.

Whole numbers in the range of 64-bit words stay whole, all other numbers are binary64; `-0` is the
negative zero. Records come out with ascending keys, and the last of equal keys wins.
-/

namespace LoadBench.Json

/-! ## Tokens -/

/-- A token of a JSON text. -/
inductive Token
  | leaf (value : Data)
  | openList
  | closeList
  | openRecord
  | closeRecord
  | comma
  | colon

/-- The value of a numeral: whole numbers in word range stay whole. A number that is too large for
    binary64 has no value. -/
def numberValue? (n : Numeral) (isWhole : Bool) : Option Data :=
  let magnitude := natOfDigits n.whole
  if isWhole && !n.negative && magnitude < Counter.size then some (.integer magnitude)
  else if isWhole && n.negative && 0 < magnitude && magnitude ≤ Nat.pow 2 63 then
    some (.integer (-(magnitude : Int)))
  else if n.value.isFinite then some (.real n.value)
  else none

/-- Reads the exponent of a number, if one follows. -/
def takeExponent? : List Char → Option (Option Int × List Char)
  | c :: cs =>
    if c == 'e' || c == 'E' then
      let (negative, ds) := Numeral.takeSign cs
      let digits := ds.takeWhile Char.isDigit
      if digits.isEmpty then none
      else
        let e : Int := natOfDigits digits
        some (some (if negative then -e else e), ds.dropWhile Char.isDigit)
    else some (none, c :: cs)
  | [] => some (none, [])

/-- Reads a number: no leading zeros, digits on both sides of a point. -/
def takeNumber? (cs : List Char) : Option (Data × List Char) := do
  let (negative, cs) := match cs with
    | '-' :: r => (true, r)
    | r => (false, r)
  let whole := cs.takeWhile Char.isDigit
  let rest := cs.dropWhile Char.isDigit
  if whole.isEmpty || (whole.head? == some '0' && whole.length != 1) then none
  let (fraction, rest) ← match rest with
    | '.' :: r =>
      let ds := r.takeWhile Char.isDigit
      if ds.isEmpty then none else some (some ds, r.dropWhile Char.isDigit)
    | r => some (none, r)
  let (exponent, rest) ← takeExponent? rest
  let value ← numberValue? ⟨negative, whole, fraction.getD [], exponent.getD 0⟩
    (fraction.isNone && exponent.isNone)
  return (value, rest)

/-- Reads one token at a character that is not blank. -/
def takeToken? : List Char → Option (Token × List Char)
  | '[' :: r => some (.openList, r)
  | ']' :: r => some (.closeList, r)
  | '\x7b' :: r => some (.openRecord, r)
  | '\x7d' :: r => some (.closeRecord, r)
  | ',' :: r => some (.comma, r)
  | ':' :: r => some (.colon, r)
  | 'n' :: 'u' :: 'l' :: 'l' :: r => some (.leaf .null, r)
  | 't' :: 'r' :: 'u' :: 'e' :: r => some (.leaf (.flag true), r)
  | 'f' :: 'a' :: 'l' :: 's' :: 'e' :: r => some (.leaf (.flag false), r)
  | '"' :: r => (Quoted.decode? [] r).map fun (s, rest) => (.leaf (.text (String.ofList s)), rest)
  | cs => (takeNumber? cs).map fun (v, rest) => (.leaf v, rest)

/-- The blanks between tokens. -/
def isGap (c : Char) : Bool := c == ' ' || c == '\n' || c == '\t' || c == '\r'

/-- The tokens of a text; every token takes at least one character, so the length of the text
    bounds their number. -/
def tokensWithin? : Nat → List Char → Option (List Token)
  | fuel, cs =>
    match fuel, cs.dropWhile isGap with
    | _, [] => some []
    | 0, _ :: _ => none
    | fuel + 1, c :: r => do
      let (t, rest) ← takeToken? (c :: r)
      let ts ← tokensWithin? fuel rest
      return t :: ts

/-- The tokens of a text. -/
def tokens? (cs : List Char) : Option (List Token) := tokensWithin? cs.length cs

/-! ## Values from tokens -/

/-- A container that is still open, with what has been read of it, last first. -/
inductive Open
  | list (items : List Data)
  | record (fields : List (String × Data))
  | field (fields : List (String × Data)) (key : String)

/-- What the next token may be. -/
inductive Expect
  /-- A value. -/
  | value
  /-- A value, or the end of a list just opened. -/
  | itemOrEnd
  /-- A key. -/
  | key
  /-- A key, or the end of a record just opened. -/
  | keyOrEnd
  /-- The colon behind a key. -/
  | colon
  /-- A comma or the end of the innermost container. -/
  | more
  /-- Nothing: the text is complete. -/
  | done
deriving DecidableEq

/-- The open containers, innermost first, what may follow, and the value once it is complete. -/
structure Progress where
  stack : List Open
  expect : Expect
  result : Option Data

/-- Hands a complete value to the innermost open container. -/
def complete (value : Data) : List Open → Option Progress
  | [] => some ⟨[], .done, some value⟩
  | .list items :: stack => some ⟨.list (value :: items) :: stack, .more, none⟩
  | .field fields key :: stack => some ⟨.record ((key, value) :: fields) :: stack, .more, none⟩
  | .record _ :: _ => none

/-- The deepest nesting that is read. -/
def depthLimit : Nat := 127

/-- Opens a container. -/
def descend? (o : Open) (expect : Expect) (stack : List Open) : Option Progress :=
  if stack.length < depthLimit then some ⟨o :: stack, expect, none⟩ else none

/-- Reads one token against the open containers. -/
def step? (p : Progress) (t : Token) : Option Progress :=
  match p.expect, t, p.stack with
  | .key, .leaf (.text key), .record fields :: stack
  | .keyOrEnd, .leaf (.text key), .record fields :: stack =>
    some ⟨.field fields key :: stack, .colon, none⟩
  | .colon, .colon, stack => some ⟨stack, .value, none⟩
  | .value, .leaf v, stack | .itemOrEnd, .leaf v, stack => complete v stack
  | .value, .openList, stack | .itemOrEnd, .openList, stack =>
    descend? (.list []) .itemOrEnd stack
  | .value, .openRecord, stack | .itemOrEnd, .openRecord, stack =>
    descend? (.record []) .keyOrEnd stack
  | .itemOrEnd, .closeList, .list items :: stack | .more, .closeList, .list items :: stack =>
    complete (.list items.reverse) stack
  | .keyOrEnd, .closeRecord, .record fields :: stack
  | .more, .closeRecord, .record fields :: stack =>
    complete (Data.sortedRecord fields.reverse) stack
  | .more, .comma, .list items :: stack => some ⟨.list items :: stack, .value, none⟩
  | .more, .comma, .record fields :: stack => some ⟨.record fields :: stack, .key, none⟩
  | _, _, _ => none

/-- The value of a text. -/
def parse? (text : String) : Option Data := do
  let ts ← tokens? text.toList
  let p ← ts.foldlM step? ⟨[], .value, none⟩
  p.result

end LoadBench.Json
