import LoadBench.Data
import LoadBench.Decimal.Layout
import LoadBench.Yaml.Cursor
import LoadBench.Yaml.Word

/-!
# Writing documents

A tree of data as a document in blocks: fields in their order, two blanks a level, and the items of
a list directly below their key. A text is written plainly unless it would then be read as something
else.

* `Layout.ofText`: how a text is set.
* `render`: the document of a tree.
-/

namespace LoadBench.Yaml

/-! ## Texts -/

/-- How a text is set in a document. -/
inductive Layout
  | plain
  | single
  | double
  | literal
deriving DecidableEq, Repr

/-- The character can be seen. -/
def isPrintable (c : Char) : Bool :=
  let n := c.toNat
  n == 0xA || (0x20 ≤ n && n ≤ 0x7E) || (0xA0 ≤ n && n ≤ 0xFFFD && n != 0xFEFF) || 0x10000 ≤ n

/-- Two neighbours somewhere in a list have a property. -/
def anyAdjacent (p : Char → Char → Bool) (cs : List Char) : Bool :=
  (cs.zip (cs.drop 1)).any fun (a, b) => p a b

/-- The text begins like the mark of a document. -/
def startsAsMark (cs : List Char) : Bool :=
  "---".toList.isPrefixOf cs || "...".toList.isPrefixOf cs

/-- The text begins with a character that has a meaning of its own there. -/
def startsAsToken : List Char → Bool
  | [] => false
  | c :: rest =>
    isFlowMark c || "#&*!|>'\"%@".toList.contains c || c == Char.ofNat 0x60
      || ("?:-".toList.contains c && endsWord rest)

/-- A colon in front of a gap, or a number sign behind one. -/
def holdsToken : List Char → Bool
  | a :: b :: rest =>
    (b == ':' && endsWord rest) || (b == '#' && (isGap a || a == '\x00')) || holdsToken (b :: rest)
  | _ => false

namespace Layout

/-- Whether a text can be set between single quotes: every character can be seen, and no blank and
    line break stand side by side. -/
def fitsSingle (cs : List Char) : Bool :=
  cs.all isPrintable
    && !anyAdjacent (fun a b => (a == ' ' && isBreak b) || (isBreak a && b == ' ')) cs

/-- Whether a text can be set plainly. -/
def fitsPlain (cs : List Char) : Bool :=
  fitsSingle cs && !cs.any isBreak && cs.head? != some ' ' && cs.getLast? != some ' '
    && !startsAsMark cs && !startsAsToken cs && !holdsToken cs

/-- Whether a text can be set line by line: every character can be seen, and no line ends in a
    blank. -/
def fitsLiteral (cs : List Char) : Bool :=
  cs.all isPrintable && !anyAdjacent (fun a b => a == ' ' && isBreak b) cs
    && cs.getLast? != some ' '

/-- How a text is set: with line breaks line by line, else plainly, and where that will not do
    between quotes. -/
def ofText (s : String) : Layout :=
  let cs := s.toList
  if cs.contains '\n' then (if fitsLiteral cs then literal else double)
  else if !Word.isTaken s && fitsPlain cs then plain
  else if fitsSingle cs then single
  else double

end Layout

/-- Blanks in front of a line. -/
def margin (indent : Nat) : List Char := List.replicate indent ' '

/-- Characters with a margin in front of those that follow a line break. -/
def indented (indent : Nat) (fresh : Bool) : List Char → List Char
  | [] => []
  | c :: rest =>
    if isBreak c then c :: indented indent true rest
    else (if fresh then margin indent else []) ++ c :: indented indent false rest

/-- A text between single quotes, in which a quote is written twice. -/
def singleQuoted (indent : Nat) (cs : List Char) : List Char :=
  let body := cs.flatMap fun c => if c == '\'' then ['\'', '\''] else [c]
  let closing := if body.getLast?.any isBreak then margin indent else []
  '\'' :: indented indent false body ++ closing ++ ['\'']

/-- Digits of base sixteen in capitals, up to a width. -/
def hexCapitals : Nat → Nat → List Char
  | 0, _ => []
  | width + 1, n => hexCapitals width (n / 16) ++ [(Json.Quoted.hexDigit (n % 16)).toUpper]

/-- How a character is written between double quotes. -/
def doubleChar (c : Char) : List Char :=
  let n := c.toNat
  if isPrintable c && !isBreak c && c != '"' && c != '\\' then [c]
  else
    '\\' :: match n with
      | 0x00 => ['0']
      | 0x07 => ['a']
      | 0x08 => ['b']
      | 0x09 => ['t']
      | 0x0A => ['n']
      | 0x0B => ['v']
      | 0x0C => ['f']
      | 0x0D => ['r']
      | 0x1B => ['e']
      | 0x22 => ['"']
      | 0x5C => ['\\']
      | 0x85 => ['N']
      | 0x2028 => ['L']
      | 0x2029 => ['P']
      | n =>
        if n ≤ 0xFF then 'x' :: hexCapitals 2 n
        else if n ≤ 0xFFFF then 'u' :: hexCapitals 4 n
        else 'U' :: hexCapitals 8 n

/-- A text between double quotes. -/
def doubleQuoted (cs : List Char) : List Char := '"' :: cs.flatMap doubleChar ++ ['"']

/-- What the head of a literal scalar says of its end: whether breaks are to be dropped or kept. -/
def chompMark (cs : List Char) : List Char :=
  match cs.reverse with
  | [] => ['-']
  | last :: before =>
    if !isBreak last then ['-']
    else
      match before with
      | [] => ['+']
      | b :: _ => if isBreak b then ['+'] else []

/-- A text line by line; its head gives the indentation where the text starts with a gap. -/
def literalText (indent : Nat) (cs : List Char) : List Char :=
  let hint := if cs.head?.any (fun c => c == ' ' || isBreak c) then ['2'] else []
  '|' :: hint ++ chompMark cs ++ '\n' :: indented indent true cs

/-- A text as it stands in a document, further lines with a margin. -/
def textChars (indent : Nat) (s : String) : List Char :=
  let cs := s.toList
  match Layout.ofText s with
  | .plain => cs
  | .single => singleQuoted indent cs
  | .double => doubleQuoted cs
  | .literal => literalText indent cs

/-! ## Trees -/

/-- A leaf. -/
def leafChars (indent : Nat) : Data → List Char
  | .null => "null".toList
  | .flag b => (if b then "true" else "false").toList
  | .integer n => (if n < 0 then ['-'] else []) ++ digitsOf n.natAbs
  | .real x => (NumberFormat.document.render x).toList
  | .text s => textChars indent s
  | .list _ => ['[', ']']
  | .record _ => ['\x7b', '\x7d']

/-- The end of a line, unless the text already ends in one. -/
def closeLine (cs : List Char) : List Char :=
  if cs.getLast?.any isBreak then cs else cs ++ ['\n']

mutual

/-- A tree behind a key: a leaf in the same line, the others below. -/
def belowKey (indent : Nat) : Data → List Char
  | .list (d :: rest) => '\n' :: margin indent ++ itemChars indent d ++ itemsChars indent rest
  | .record ((k, d) :: rest) =>
    '\n' :: margin (indent + 2) ++ textChars (indent + 2) k ++ ':' :: belowKey (indent + 2) d
      ++ fieldsChars (indent + 2) rest
  | d => closeLine (' ' :: leafChars (indent + 2) d)

/-- An item behind its hyphen; the first line of a list or a record stands beside it. -/
def itemChars (indent : Nat) : Data → List Char
  | .list (d :: rest) => '-' :: ' ' :: itemChars (indent + 2) d ++ itemsChars (indent + 2) rest
  | .record ((k, d) :: rest) =>
    '-' :: ' ' :: textChars (indent + 2) k ++ ':' :: belowKey (indent + 2) d
      ++ fieldsChars (indent + 2) rest
  | d => closeLine ('-' :: ' ' :: leafChars (indent + 2) d)

/-- Items on lines of their own. -/
def itemsChars (indent : Nat) : List Data → List Char
  | [] => []
  | d :: rest => margin indent ++ itemChars indent d ++ itemsChars indent rest

/-- Fields on lines of their own. -/
def fieldsChars (indent : Nat) : List (String × Data) → List Char
  | [] => []
  | (k, d) :: rest =>
    margin indent ++ textChars indent k ++ ':' :: belowKey indent d ++ fieldsChars indent rest

end

/-- The document of a tree. -/
def render (d : Data) : String :=
  String.ofList <| match d with
    | .list (d :: rest) => itemsChars 0 (d :: rest)
    | .record (f :: rest) => fieldsChars 0 (f :: rest)
    | d => closeLine (leafChars 2 d)

end LoadBench.Yaml
