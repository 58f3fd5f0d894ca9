/-!
# Places in a text

A cursor is a place in a text: what is still to be read, and how many bytes, lines and columns lie
before it. Columns decide how blocks nest.

* `isBreak`, `isBlank`, `isGap`, `isWord`, `isAllowed`: the classes of characters.
* `Cursor.advance`, `Cursor.takeBreak?`: moves within a line and to the next one.
* `Cursor.atDocumentMark`: a line of three hyphens or three points begins.
-/

namespace LoadBench.Yaml

/-! ## Characters -/

/-- The character ends a line. -/
def isBreak (c : Char) : Bool :=
  c == '\n' || c == '\r' || c == '\u0085' || c == '\u2028' || c == '\u2029'

/-- The character separates words within a line. -/
def isBlank (c : Char) : Bool := c == ' ' || c == '\t'

/-- The character separates words. -/
def isGap (c : Char) : Bool := isBlank c || isBreak c

/-- A character of a name. -/
def isWord (c : Char) : Bool := c.isAlphanum || c == '_' || c == '-'

/-- The character may stand in a document. -/
def isAllowed (c : Char) : Bool :=
  let n := c.toNat
  n == 0x9 || n == 0xA || n == 0xD || (0x20 ≤ n && n ≤ 0x7E) || n == 0x85
    || (0xA0 ≤ n && n ≤ 0xFFFD) || 0x10000 ≤ n

/-- A word ends here: at a gap or at the end of the text. -/
def endsWord : List Char → Bool
  | [] => true
  | c :: _ => isGap c

/-- Flow brackets and the comma between them. -/
def isFlowMark (c : Char) : Bool :=
  c == ',' || c == '[' || c == ']' || c == '\x7b' || c == '\x7d'

/-! ## Cursors -/

/-- A place in a text. -/
structure Cursor where
  rest : List Char
  index : Nat
  line : Nat
  column : Nat

namespace Cursor

/-- The mark of byte order. -/
def byteOrderMark : Char := '\uFEFF'

/-- The start of a text. -/
def start (cs : List Char) : Cursor := ⟨cs, 0, 0, 0⟩

/-- The number of bytes that characters take. -/
def width (cs : List Char) : Nat := cs.foldl (fun n c => n + c.utf8Size) 0

/-- The place some characters further on in the same line. -/
def advance (c : Cursor) (n : Nat) : Cursor where
  rest := c.rest.drop n
  index := c.index + width (c.rest.take n)
  line := c.line
  column := c.column + n

/-- The start of the next line, behind the characters of a break. -/
def nextLine (c : Cursor) (rest taken : List Char) : Cursor where
  rest := rest
  index := c.index + width taken
  line := c.line + 1
  column := 0

/-- The place behind a mark of byte order in front of a line, which takes up a column. -/
def skipByteOrderMark (c : Cursor) : Cursor :=
  if c.column == 0 && c.rest.head? == some byteOrderMark then c.advance 1 else c

/-- A line break here, as the character that it stands for, and the place behind it. -/
def takeBreak? (c : Cursor) : Option (Char × Cursor) :=
  match c.rest with
  | '\r' :: '\n' :: rest => some ('\n', c.nextLine rest ['\r', '\n'])
  | b :: rest =>
    if b == '\u2028' || b == '\u2029' then some (b, c.nextLine rest [b])
    else if isBreak b then some ('\n', c.nextLine rest [b])
    else none
  | [] => none

/-- The place behind all characters here that have a property and lie in this line. -/
def skipWhile (p : Char → Bool) (c : Cursor) : Cursor := c.advance (c.rest.takeWhile p).length

/-- The characters here that have a property, and the place behind them. -/
def takeWhile (p : Char → Bool) (c : Cursor) : List Char × Cursor :=
  let taken := c.rest.takeWhile p
  (taken, c.advance taken.length)

/-- A line begins here with a mark of three characters that stands alone. -/
def atMark (mark : Char) (c : Cursor) : Bool :=
  c.column == 0 && match c.rest with
    | x :: y :: z :: rest => x == mark && y == mark && z == mark && endsWord rest
    | _ => false

/-- A document begins or ends here. -/
def atDocumentMark (c : Cursor) : Bool := c.atMark '-' || c.atMark '.'

end Cursor

end LoadBench.Yaml
