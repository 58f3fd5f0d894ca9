import LoadBench.Json.Quoted
import LoadBench.Yaml.Cursor
import LoadBench.Yaml.Token

/-!
# Anchors, tags and directives

The marks in front of a value, and the lines in front of a document.

* `name?`: the name of an anchor or of an alias.
* `tag?`: a tag, in any of its forms.
* `directive?`: a line that declares the version or a shorthand for tags.
-/

namespace LoadBench.Yaml

open Json.Quoted (hexValue?)

/-! ## Anchors -/

/-- The characters that may follow the name of an anchor, gaps apart. -/
def endsName (c : Char) : Bool :=
  c == '?' || c == ':' || c == ',' || c == ']' || c == '\x7d' || c == '%' || c == '@'
    || c == (Char.ofNat 0x60)

/-- The name of an anchor or an alias; the place is that behind the mark. -/
def name? (c : Cursor) : Option (String × Cursor) :=
  let (word, c) := c.takeWhile isWord
  if word.isEmpty || !(endsWord c.rest || c.rest.head?.any endsName) then none
  else some (String.ofList word, c)

/-! ## Tags -/

/-- A character of a tag; within angle brackets also brackets and the comma. -/
def isTagChar (bracketed : Bool) (c : Char) : Bool :=
  isWord c || ";/?:@&=+$.%!~*'()".toList.contains c
    || (bracketed && (c == ',' || c == '[' || c == ']'))

/-- The number of further bytes in a character that begins with a byte. -/
def moreBytes? (b : Nat) : Option Nat :=
  if b < 0x80 then some 0
  else if b < 0xC0 then none
  else if b < 0xE0 then some 1
  else if b < 0xF0 then some 2
  else if b < 0xF8 then some 3
  else none

/-- A byte written as a percent sign and two digits, and the rest. -/
def escapedByte? : List Char → Option (Nat × List Char)
  | '%' :: a :: b :: rest => return ((← hexValue? a) * 16 + (← hexValue? b), rest)
  | _ => none

/-- Some bytes inside a character, written one by one, and the rest. -/
def innerBytes? : Nat → List Char → Option (Tag × List Char)
  | 0, cs => some ([], cs)
  | n + 1, cs => do
    let (b, rest) ← escapedByte? cs
    if b / 64 != 2 then none
    let (bs, rest) ← innerBytes? n rest
    return (b.toUInt8 :: bs, rest)

/-- A character written by its bytes, and the rest. -/
def escapedChar? (cs : List Char) : Option (Tag × List Char) := do
  let (b, rest) ← escapedByte? cs
  let (bs, rest) ← innerBytes? (← moreBytes? b) rest
  return (b.toUInt8 :: bs, rest)

/-- The bytes of a tag, in which a percent sign starts a byte of a character. -/
def unescaped? : Nat → List Char → Option Tag
  | _, [] => some []
  | 0, _ => none
  | fuel + 1, c :: rest =>
    if c == '%' then do
      let (bytes, rest) ← escapedChar? (c :: rest)
      return bytes ++ (← unescaped? fuel rest)
    else (unescaped? fuel rest).map (c.toNat.toUInt8 :: ·)

/-- The tag that characters spell. A byte of zero ends it. -/
def tagBytes? (cs : List Char) : Option Tag :=
  (unescaped? cs.length cs).map (·.takeWhile (· != 0))

/-- The characters of a tag here, of which there are some, and the place behind them. -/
def tagText? (bracketed : Bool) (c : Cursor) : Option (Tag × Cursor) := do
  let (raw, c) := c.takeWhile (isTagChar bracketed)
  if raw.isEmpty then none
  return (← tagBytes? raw, c)

/-- A tag that is a mark and nothing else. -/
def bareTag : Tag := ['!'.toNat.toUInt8]

/-- A tag behind its opening mark: within angle brackets, with a handle that ends in another mark,
    or with a single mark for a handle. A mark alone is a tag too. -/
def tagParts? (c : Cursor) : Option (String × Tag × Cursor) := do
  match c.rest with
  | '<' :: _ =>
    let (text, c) ← tagText? true (c.advance 1)
    if c.rest.head? != some '>' then none
    return ("", text, c.advance 1)
  | _ =>
    let (word, after) := c.takeWhile isWord
    if after.rest.head? == some '!' then
      let (text, c) ← tagText? false (after.advance 1)
      return (String.ofList ('!' :: word ++ ['!']), text, c)
    else
      let (raw, c) := c.takeWhile (isTagChar false)
      let suffix ← tagBytes? raw
      if suffix.isEmpty then return ("", bareTag, c) else return ("!", suffix, c)

/-- A tag behind its opening mark. A gap follows it, or within brackets a comma. -/
def tag? (inFlow : Bool) (c : Cursor) : Option (Token × Cursor) := do
  let (handle, suffix, c) ← tagParts? c
  if endsWord c.rest || (inFlow && c.rest.head? == some ',') then
    return (.tag handle suffix, c)
  else none

/-! ## Directives -/

/-- A number of at most nine digits. -/
def versionNumber? (c : Cursor) : Option (Nat × Cursor) :=
  let (digits, c) := c.takeWhile Char.isDigit
  if digits.isEmpty || 9 < digits.length then none
  else some (digits.foldl (fun n d => 10 * n + (d.toNat - '0'.toNat)) 0, c)

/-- The two numbers of a version. -/
def version? (c : Cursor) : Option (Token × Cursor) := do
  let (major, c) ← versionNumber? (c.skipWhile isBlank)
  if c.rest.head? != some '.' then none
  let (minor, c) ← versionNumber? (c.advance 1)
  return (.version major minor, c)

/-- A handle and what it is short for. -/
def tagShorthand? (c : Cursor) : Option (Token × Cursor) := do
  let c := c.skipWhile isBlank
  if c.rest.head? != some '!' then none
  let (word, c) := (c.advance 1).takeWhile isWord
  let isClosed := c.rest.head? == some '!'
  if !isClosed && !word.isEmpty then none
  let c := if isClosed then c.advance 1 else c
  let handle := '!' :: word ++ if isClosed then ['!'] else []
  if !c.rest.head?.any isBlank then none
  let (text, c) ← tagText? true (c.skipWhile isBlank)
  if !endsWord c.rest then none
  return (.tagShorthand (String.ofList handle) text, c)

/-- A directive behind its opening mark, up to the end of its line. -/
def directive? (c : Cursor) : Option (Token × Cursor) := do
  let (word, c) := c.takeWhile isWord
  if !endsWord c.rest then none
  let (token, c) ← match String.ofList word with
    | "YAML" => version? c
    | "TAG" => tagShorthand? c
    | _ => none
  let c := c.skipWhile isBlank
  let c := if c.rest.head? == some '#' then c.skipWhile (!isBreak ·) else c
  match c.rest with
  | [] => return (token, c)
  | _ => return (token, (← c.takeBreak?).2)

end LoadBench.Yaml
