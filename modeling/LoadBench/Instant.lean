import LoadBench.Data.Source
import LoadBench.Decimal.Layout
import LoadBench.Decimal.Numeral
import LoadBench.Text.Blank

/-!
# Instants

An instant is a point of civil time in UTC, to the nanosecond. It is written in RFC 3339 form with
as few fraction digits as fit, and read from that form with any offset; blanks between the parts are
passed over.

* `Instant.dayNumber`, `Instant.dayOf`: civil dates and day numbers, counted from 1970-01-01.
* `Instant.parse?`, `Instant.render`: reading and writing.
* `Instant.addSeconds`: a later instant.
-/

namespace LoadBench

/-- A point in time: whole seconds since 1970-01-01T00:00:00Z, and nanoseconds on top; a leap second
    is the second before it with a thousand million nanoseconds or more. -/
structure Instant where
  seconds : Int
  nanos : Nat
deriving DecidableEq, Repr

namespace Instant

/-- The start of the count. -/
def epoch : Instant := ⟨0, 0⟩

/-- An instant a number of seconds later. -/
def addSeconds (t : Instant) (n : Int) : Instant := { t with seconds := t.seconds + n }

/-! ## Civil dates -/

/-- A year of the Gregorian calendar has 366 days. -/
def isLeapYear (y : Int) : Bool := y % 4 == 0 && (y % 100 != 0 || y % 400 == 0)

/-- The number of days in a month. -/
def daysInMonth (y : Int) (m : Nat) : Nat :=
  if m == 2 then (if isLeapYear y then 29 else 28)
  else if m == 4 || m == 6 || m == 9 || m == 11 then 30
  else 31

/-- The day number of a civil date. Years are counted from March, so that the leap day comes
    last. -/
def dayNumber (y : Int) (m d : Nat) : Int :=
  let y' := if m ≤ 2 then y - 1 else y
  let era := y'.fdiv 400
  let yearOfEra := y' - era * 400
  let monthFromMarch : Int := (m + 9) % 12
  let dayOfYear := (153 * monthFromMarch + 2).fdiv 5 + d - 1
  let dayOfEra := yearOfEra * 365 + yearOfEra.fdiv 4 - yearOfEra.fdiv 100 + dayOfYear
  era * 146097 + dayOfEra - 719468

/-- The civil date of a day number. -/
def dayOf (n : Int) : Int × Nat × Nat :=
  let z := n + 719468
  let era := z.fdiv 146097
  let dayOfEra := z - era * 146097
  let leapDays := dayOfEra.fdiv 1460 - dayOfEra.fdiv 36524 + dayOfEra.fdiv 146096
  let yearOfEra := (dayOfEra - leapDays).fdiv 365
  let dayOfYear := dayOfEra - (365 * yearOfEra + yearOfEra.fdiv 4 - yearOfEra.fdiv 100)
  let monthFromMarch := (5 * dayOfYear + 2).fdiv 153
  let day := dayOfYear - (153 * monthFromMarch + 2).fdiv 5 + 1
  let month := if monthFromMarch < 10 then monthFromMarch + 3 else monthFromMarch - 9
  let year := yearOfEra + era * 400 + (if month ≤ 2 then 1 else 0)
  (year, month.toNat, day.toNat)

/-- The first and the last year of the calendar. -/
def yearRange : Int × Int := (-262143, 262142)

/-! ## Writing -/

/-- The fraction of a second with 0, 3, 6 or 9 digits, the fewest that fit. -/
def fractionText (nanos : Nat) : List Char :=
  if nanos == 0 then []
  else if nanos % 1000000 == 0 then '.' :: zeroPadded 3 (nanos / 1000000)
  else if nanos % 1000 == 0 then '.' :: zeroPadded 6 (nanos / 1000)
  else '.' :: zeroPadded 9 nanos

/-- A year with four digits; outside of those years with a sign and at least four digits. -/
def yearText (y : Int) : List Char :=
  if 0 ≤ y && y ≤ 9999 then zeroPadded 4 y.toNat
  else (if y < 0 then '-' else '+') :: zeroPadded 4 y.natAbs

/-- The RFC 3339 form in UTC. -/
def render (t : Instant) : String :=
  let (year, month, day) := dayOf (t.seconds.fdiv 86400)
  let secondOfDay := (t.seconds.fmod 86400).toNat
  let isLeap := 1000000000 ≤ t.nanos
  let second := secondOfDay % 60 + (if isLeap then 1 else 0)
  let nanos := if isLeap then t.nanos - 1000000000 else t.nanos
  String.ofList <|
    yearText year ++ '-' :: zeroPadded 2 month ++ '-' :: zeroPadded 2 day
      ++ 'T' :: zeroPadded 2 (secondOfDay / 3600) ++ ':' :: zeroPadded 2 (secondOfDay / 60 % 60)
      ++ ':' :: zeroPadded 2 second ++ fractionText nanos ++ ['Z']

/-! ## Reading -/

/-- Passes over blanks. -/
def skipBlanks (cs : List Char) : List Char := cs.dropWhile Text.isBlank

/-- Up to `width` digits, at least one, behind blanks. -/
def takeNumber? (width : Nat) (cs : List Char) : Option (Nat × List Char) :=
  let digits := ((skipBlanks cs).takeWhile Char.isDigit).take width
  if digits.isEmpty then none else some (natOfDigits digits, (skipBlanks cs).drop digits.length)

/-- A given character behind blanks. -/
def takeMark? (mark : Char) (cs : List Char) : Option (List Char) :=
  match skipBlanks cs with
  | c :: rest => if c == mark then some rest else none
  | [] => none

/-- A year: four digits at most, or a sign and any number of digits. -/
def takeYear? (cs : List Char) : Option (Int × List Char) :=
  match skipBlanks cs with
  | '-' :: rest => signed rest true
  | '+' :: rest => signed rest false
  | rest => (takeNumber? 4 rest).map fun (n, r) => ((n : Int), r)
where
  signed (rest : List Char) (negative : Bool) : Option (Int × List Char) :=
    let digits := rest.takeWhile Char.isDigit
    if digits.isEmpty then none
    else
      let n : Int := natOfDigits digits
      some (if negative then -n else n, rest.drop digits.length)

/-- The fraction of a second: nine digits count, further ones are passed over. -/
def takeFraction? : List Char → Option (Nat × List Char)
  | '.' :: rest =>
    let digits := rest.takeWhile Char.isDigit
    if digits.isEmpty then none
    else
      let counted := digits.take 9
      some (natOfDigits counted * Nat.pow 10 (9 - counted.length), rest.drop digits.length)
  | rest => some (0, rest)

/-- An offset in seconds: `Z`, `UTC`, or a sign, hours and minutes with any colons and blanks
    between them. -/
def takeOffset? (cs : List Char) : Option (Int × List Char) :=
  match cs with
  | 'Z' :: rest | 'z' :: rest => some (0, rest)
  | u :: t :: c :: rest =>
    if u.toLower == 'u' && t.toLower == 't' && c.toLower == 'c' then some (0, rest)
    else signed cs
  | _ => signed cs
where
  signed (cs : List Char) : Option (Int × List Char) :=
    match cs with
    | sign :: h₁ :: h₂ :: rest =>
      let rest := rest.dropWhile fun c => c == ':' || Text.isBlank c
      match rest with
      | m₁ :: m₂ :: rest =>
        let isSign := sign == '+' || sign == '-' || sign == '−'
        if isSign && h₁.isDigit && h₂.isDigit && m₁.isDigit && m₁.toNat < '6'.toNat
            && m₂.isDigit then
          let seconds : Int := natOfDigits [h₁, h₂] * 3600 + natOfDigits [m₁, m₂] * 60
          some (if sign == '+' then seconds else -seconds, rest)
        else none
      | _ => none
    | _ => none

/-- The instant of a civil date and time at an offset, if they exist; a sixtieth second is a leap
    second. -/
def ofCivil? (y : Int) (month day hour minute second nanos : Nat) (offset : Int) :
    Option Instant :=
  let inCalendar (y : Int) : Bool := yearRange.1 ≤ y && y ≤ yearRange.2
  if inCalendar y && 1 ≤ month && month ≤ 12 && 1 ≤ day && day ≤ daysInMonth y month
      && hour ≤ 23 && minute ≤ 59 && second ≤ 60 && offset.natAbs < 86400 then
    let isLeap := second == 60
    let secondOfDay : Int := hour * 3600 + minute * 60 + (if isLeap then 59 else second)
    let seconds := dayNumber y month day * 86400 + secondOfDay - offset
    if inCalendar (dayOf (seconds.fdiv 86400)).1 then
      some ⟨seconds, if isLeap then nanos + 1000000000 else nanos⟩
    else none
  else none

/-- Reads the RFC 3339 form, with `T`, `t` or one blank between date and time. -/
def parse? (text : String) : Option Instant := do
  let (year, cs) ← takeYear? text.toList
  let (month, cs) ← takeNumber? 2 (← takeMark? '-' cs)
  let (day, cs) ← takeNumber? 2 (← takeMark? '-' cs)
  let cs ← match cs with
    | c :: rest => if c == 'T' || c == 't' || c == ' ' then some rest else none
    | [] => none
  let (hour, cs) ← takeNumber? 2 cs
  let (minute, cs) ← takeNumber? 2 (← takeMark? ':' cs)
  let (second, cs) ← takeNumber? 2 (← takeMark? ':' cs)
  let (nanos, cs) ← takeFraction? cs
  let (offset, cs) ← takeOffset? (skipBlanks cs)
  if (skipBlanks cs).isEmpty then ofCivil? year month day hour minute second nanos offset else none

/-- An instant in a document. -/
def read? [Source δ] (d : δ) : Option Instant := do parse? (← Source.text d)

/-- An instant as data. -/
def data (t : Instant) : Data := .text t.render

end Instant

end LoadBench
