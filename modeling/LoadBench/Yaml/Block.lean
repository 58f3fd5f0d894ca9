import LoadBench.Yaml.Cursor

/-!
# Block scalars

A literal or folded scalar: a head that may give the indentation and says what becomes of the line
breaks at the end, and then the lines that are indented at least as far.

* `Chomp`, `BlockHead`: the head.
* `block?`: a block scalar.
-/

namespace LoadBench.Yaml

/-- What becomes of the line breaks at the end of a block scalar. -/
inductive Chomp
  /-- None is kept. -/
  | strip
  /-- The first one is kept. -/
  | clip
  /-- All are kept. -/
  | keep
deriving DecidableEq, Repr

/-- The head of a block scalar; the indentation counts from that of the block around it. -/
structure BlockHead where
  indent : Option Nat
  chomp : Chomp

/-! ## The head -/

/-- The mark for the line breaks at the end. -/
def chomp? : List Char → Option (Chomp × List Char)
  | '+' :: rest => some (.keep, rest)
  | '-' :: rest => some (.strip, rest)
  | _ => none

/-- A digit for the indentation, which is not zero. -/
def indentDigit? : List Char → Option (Option Nat × List Char)
  | c :: rest =>
    if c.isDigit then
      if c == '0' then none else some (some (c.toNat - '0'.toNat), rest)
    else some (none, c :: rest)
  | [] => some (none, [])

/-- Reads the marks behind the one that opens the scalar, in either order. -/
def blockHead? (cs : List Char) : Option (BlockHead × List Char) := do
  match chomp? cs with
  | some (chomp, rest) =>
    let (indent, rest) ← indentDigit? rest
    return (⟨indent, chomp⟩, rest)
  | none =>
    let (indent, rest) ← indentDigit? cs
    match indent, chomp? rest with
    | some n, some (chomp, rest) => return (⟨some n, chomp⟩, rest)
    | _, _ => return (⟨indent, .clip⟩, rest)

/-- The place behind the line of a head: blanks, a comment, and the line break. -/
def endOfLine? (c : Cursor) : Option Cursor :=
  let c := c.skipWhile isBlank
  let c := if c.rest.head? == some '#' then c.skipWhile (!isBreak ·) else c
  match c.rest with
  | [] => some c
  | _ => c.takeBreak?.map Prod.snd

/-! ## The lines -/

/-- Reads indentation and empty lines. Without a set indentation, blanks are read as far as they go,
    and the widest line of them counts. Gives the breaks, the widest indentation, and the place. -/
def emptyLines? (indent : Option Nat) :
    Nat → Cursor → List Char → Nat → Option (List Char × Nat × Cursor)
  | 0, _, _, _ => none
  | fuel + 1, c, breaks, widest =>
    let blanks := (c.rest.takeWhile (· == ' ')).length
    let c := c.advance (match indent with
      | some n => min blanks (n - c.column)
      | none => blanks)
    let widest := max widest c.column
    if c.rest.head? == some '\t' && indent.all (c.column < ·) then none
    else
      match c.takeBreak? with
      | some (b, c) => emptyLines? indent fuel c (breaks ++ [b]) widest
      | none => some (breaks, widest, c)

/-- What stands between two lines of a scalar: the break behind the first, and the further ones. In
    a folded scalar a break between lines that do not start with a blank becomes a blank. -/
def between (folded : Bool) (first : Option Char) (more : List Char) : List Char :=
  if folded && first == some '\n' then (if more.isEmpty then [' '] else more)
  else first.toList ++ more

/-- What is kept of the breaks at the end. -/
def chomped (chomp : Chomp) (first : Option Char) (more : List Char) : List Char :=
  match chomp with
  | .strip => []
  | .clip => first.toList
  | .keep => first.toList ++ more

/-- The lines of a scalar behind some text, a break and further breaks; `spaced` says that the line
    before started with a blank. -/
def lines? (isFolded : Bool) (chomp : Chomp) (indent : Nat) :
    Nat → Cursor → List Char → Option Char → List Char → Bool → Option (List Char × Cursor)
  | 0, _, _, _, _, _ => none
  | fuel + 1, c, text, first, more, spaced =>
    if c.column != indent || c.rest.isEmpty then some (text ++ chomped chomp first more, c)
    else do
      let blank := c.rest.head?.any isBlank
      let text := text ++ between (isFolded && !spaced && !blank) first more
      let (line, c) := c.takeWhile (!isBreak ·)
      let (first, c) := match c.takeBreak? with
        | some (b, c) => (some b, c)
        | none => (none, c)
      let (more, _, c) ← emptyLines? (some indent) (c.rest.length + 1) c [] 0
      lines? isFolded chomp indent fuel c (text ++ line) first more blank

/-- A block scalar in a block of some indentation; the place is that behind the opening mark. -/
def block? (isFolded : Bool) (around : Int) (c : Cursor) : Option (List Char × Cursor) := do
  let (head, rest) ← blockHead? c.rest
  let c ← endOfLine? (c.advance (c.rest.length - rest.length))
  let set := head.indent.map fun n => (max around 0).toNat + n
  let (breaks, widest, c) ← emptyLines? set (c.rest.length + 1) c [] 0
  let indent := set.getD (max widest (max (around + 1).toNat 1))
  lines? isFolded head.chomp indent (c.rest.length + 1) c [] none breaks false

end LoadBench.Yaml
