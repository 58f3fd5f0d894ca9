import LoadBench.Yaml.Block
import LoadBench.Yaml.Flowing
import LoadBench.Yaml.Mark

/-!
# Tokens of a text

A text is read token by token. A key is known only by the colon behind it, so every place at which
one may have begun is kept until it is too late: a key lies in one line and is short.

* `Lexer`: the state between two tokens.
* `Lexer.next?`: one more token, or several where blocks end.
* `tokens?`: the tokens of a text.
-/

namespace LoadBench.Yaml

/-- A place at which a key may have begun. -/
structure KeyStart where
  /-- Something else than a key here would be an error. -/
  required : Bool
  /-- The number of tokens in front of it. -/
  position : Nat
  index : Nat
  line : Nat
  column : Nat

/-- The state between two tokens. -/
structure Lexer where
  cursor : Cursor
  tokens : Array Token
  /-- For every pair of open brackets, innermost first, and for the blocks around them: where a key
      may have begun. -/
  keys : List (Option KeyStart)
  /-- A key may begin here. -/
  keyAllowed : Bool
  /-- The columns of the open blocks, innermost first. -/
  indents : List Int

namespace Lexer

/-- The longest key, in bytes. -/
def keyLimit : Nat := 1024

/-- The state in front of a text. -/
def start (cs : List Char) : Lexer where
  cursor := .start cs
  tokens := #[]
  keys := [none]
  keyAllowed := true
  indents := []

/-- The place lies within brackets. -/
def inFlow (s : Lexer) : Bool := 1 < s.keys.length

/-- The column of the innermost block. -/
def indent (s : Lexer) : Int := s.indents.head?.getD (-1)

/-! ## Gaps -/

/-- Passes over gaps and comments, and over a mark of byte order in front of a line. A key may begin
    on a new line outside of brackets; where one may begin, a tab is no gap. -/
def skipGaps (inFlow : Bool) : Nat → Cursor → Bool → Cursor × Bool
  | 0, c, allowed => (c, allowed)
  | fuel + 1, c, allowed =>
    let c := c.skipByteOrderMark.skipWhile fun b => b == ' ' || (b == '\t' && (inFlow || !allowed))
    let c := if c.rest.head? == some '#' then c.skipWhile (!isBreak ·) else c
    match c.takeBreak? with
    | some (_, c) => skipGaps inFlow fuel c (allowed || !inFlow)
    | none => (c, allowed)

/-- Gives up the places at which a key can no longer have begun. -/
def dropStale? (s : Lexer) : Option Lexer := do
  let keys ← s.keys.mapM fun
    | none => some none
    | some k =>
      if k.line < s.cursor.line || k.index + keyLimit < s.cursor.index then
        if k.required then none else some none
      else some (some k)
  return { s with keys }

/-! ## Keys and blocks -/

/-- Appends a token. -/
def push (s : Lexer) (t : Token) : Lexer := { s with tokens := s.tokens.push t }

/-- Appends a token and moves on. -/
def emit (s : Lexer) (t : Token) (c : Cursor) : Lexer :=
  { s with tokens := s.tokens.push t, cursor := c }

/-- Sets whether a key may begin. -/
def allow (s : Lexer) (allowed : Bool) : Lexer := { s with keyAllowed := allowed }

/-- Gives up the innermost place at which a key may have begun. -/
def dropKey? (s : Lexer) : Option Lexer :=
  match s.keys with
  | some k :: rest => if k.required then none else some { s with keys := none :: rest }
  | _ => some s

/-- Keeps this place if a key may begin here. -/
def saveKey? (s : Lexer) : Option Lexer := do
  if !s.keyAllowed then return s
  let s ← s.dropKey?
  let k : KeyStart := {
    required := !s.inFlow && s.indent == s.cursor.column
    position := s.tokens.size
    index := s.cursor.index
    line := s.cursor.line
    column := s.cursor.column }
  return { s with keys := some k :: s.keys.tail }

/-- Opens a block at a column if it is indented further than the innermost one; its token goes in
    front of those behind a position. -/
def openBlock (s : Lexer) (column position : Nat) (t : Token) : Lexer :=
  if s.inFlow || (column : Int) ≤ s.indent then s
  else
    { s with
      indents := column :: s.indents
      tokens := s.tokens.insertIdxIfInBounds position t }

/-- Ends the blocks that are indented further than a column. -/
def closeBlocks (s : Lexer) (column : Int) : Lexer :=
  if s.inFlow then s
  else
    let closed := s.indents.takeWhile (column < ·)
    { s with
      indents := s.indents.drop closed.length
      tokens := closed.foldl (fun ts _ => ts.push .blockEnd) s.tokens }

/-! ## Tokens -/

/-- A document begins or ends. -/
def documentMark? (s : Lexer) (t : Token) : Option Lexer := do
  let s ← (s.closeBlocks (-1)).dropKey?
  return (s.allow false).emit t (s.cursor.advance 3)

/-- A directive. -/
def directiveLine? (s : Lexer) : Option Lexer := do
  let s ← (s.closeBlocks (-1)).dropKey?
  let (t, c) ← directive? (s.cursor.advance 1)
  return (s.allow false).emit t c

/-- A bracket opens. -/
def openFlow? (s : Lexer) (t : Token) : Option Lexer := do
  let s ← s.saveKey?
  return ({ s with keys := none :: s.keys }.allow true).emit t (s.cursor.advance 1)

/-- A bracket closes. -/
def closeFlow? (s : Lexer) (t : Token) : Option Lexer := do
  let s ← s.dropKey?
  let keys := if s.inFlow then s.keys.tail else s.keys
  return ({ s with keys }.allow false).emit t (s.cursor.advance 1)

/-- A comma between brackets. -/
def flowEntry? (s : Lexer) : Option Lexer := do
  let s ← s.dropKey?
  return (s.allow true).emit .flowEntry (s.cursor.advance 1)

/-- The hyphen of a list. -/
def blockEntry? (s : Lexer) : Option Lexer := do
  if !s.inFlow && !s.keyAllowed then none
  let s := s.openBlock s.cursor.column s.tokens.size .blockList
  let s ← s.dropKey?
  return (s.allow true).emit .entry (s.cursor.advance 1)

/-- The question mark of a key. -/
def explicitKey? (s : Lexer) : Option Lexer := do
  if !s.inFlow && !s.keyAllowed then none
  let s := s.openBlock s.cursor.column s.tokens.size .blockRecord
  let s ← s.dropKey?
  return (s.allow (!s.inFlow)).emit .key (s.cursor.advance 1)

/-- The colon behind a key; if one may have begun, it is inserted where it did. -/
def valueMark? (s : Lexer) : Option Lexer := do
  match s.keys with
  | some k :: rest =>
    let s := { s with
      keys := none :: rest
      tokens := s.tokens.insertIdxIfInBounds k.position .key }
    let s := s.openBlock k.column k.position .blockRecord
    return (s.allow false).emit .value (s.cursor.advance 1)
  | _ =>
    if !s.inFlow && !s.keyAllowed then none
    let s := s.openBlock s.cursor.column s.tokens.size .blockRecord
    return (s.allow (!s.inFlow)).emit .value (s.cursor.advance 1)

/-- An anchor or an alias. -/
def anchor? (s : Lexer) (token : String → Token) : Option Lexer := do
  let s ← s.saveKey?
  let (name, c) ← name? (s.cursor.advance 1)
  return (s.allow false).emit (token name) c

/-- A tag. -/
def tagMark? (s : Lexer) : Option Lexer := do
  let s ← s.saveKey?
  let (t, c) ← tag? s.inFlow (s.cursor.advance 1)
  return (s.allow false).emit t c

/-- A block scalar. -/
def blockScalar? (s : Lexer) (isFolded : Bool) : Option Lexer := do
  let s ← s.dropKey?
  let (text, c) ← block? isFolded s.indent (s.cursor.advance 1)
  return (s.allow true).emit
    (.scalar (String.ofList text) (if isFolded then .folded else .literal)) c

/-- A scalar between quotes. -/
def quotedScalar? (s : Lexer) (single : Bool) : Option Lexer := do
  let s ← s.saveKey?
  let (text, c) ← quoted? single (s.cursor.advance 1)
  return (s.allow false).emit
    (.scalar (String.ofList text) (if single then .singleQuoted else .doubleQuoted)) c

/-- A plain scalar. -/
def plainScalar? (s : Lexer) : Option Lexer := do
  let s ← s.saveKey?
  let (text, c, broken) ← plain? s.inFlow (s.indent + 1).toNat s.cursor
  return (s.allow broken).emit (.scalar (String.ofList text) .plain) c

/-- The characters that have a meaning of their own at the start of a token. -/
def isIndicator (c : Char) : Bool :=
  isFlowMark c || "-?:#&*!|>'\"%@".toList.contains c || c == Char.ofNat 0x60

/-- The token that begins with a character. -/
def token? (s : Lexer) (c : Char) (rest : List Char) : Option Lexer :=
  if s.cursor.column == 0 && c == '%' then s.directiveLine?
  else if s.cursor.atMark '-' then s.documentMark? .documentStart
  else if s.cursor.atMark '.' then s.documentMark? .documentEnd
  else if c == '[' then s.openFlow? .flowList
  else if c == '\x7b' then s.openFlow? .flowRecord
  else if c == ']' then s.closeFlow? .flowListEnd
  else if c == '\x7d' then s.closeFlow? .flowRecordEnd
  else if c == ',' then s.flowEntry?
  else if c == '-' && endsWord rest then s.blockEntry?
  else if c == '?' && (s.inFlow || endsWord rest) then s.explicitKey?
  else if c == ':' && (s.inFlow || endsWord rest) then s.valueMark?
  else if c == '*' then s.anchor? .reference
  else if c == '&' then s.anchor? .anchor
  else if c == '!' then s.tagMark?
  else if c == '|' && !s.inFlow then s.blockScalar? false
  else if c == '>' && !s.inFlow then s.blockScalar? true
  else if c == '\'' then s.quotedScalar? true
  else if c == '"' then s.quotedScalar? false
  else if !(isGap c || isIndicator c) || (c == '-' && !rest.head?.any isBlank)
      || (!s.inFlow && (c == '?' || c == ':') && !endsWord rest) then s.plainScalar?
  else none

/-- The state in front of the next token, blocks that have ended being closed. -/
def settle? (s : Lexer) : Option Lexer := do
  let (c, allowed) := skipGaps s.inFlow (s.cursor.rest.length + 1) s.cursor s.keyAllowed
  let s ← { s with cursor := c, keyAllowed := allowed }.dropStale?
  return s.closeBlocks s.cursor.column

/-- Reads tokens up to the end of the text; every one takes at least a character. -/
def finish? : Nat → Lexer → Option (Array Token)
  | 0, _ => none
  | fuel + 1, s => do
    let s ← s.settle?
    match s.cursor.rest with
    | [] => return (← (s.closeBlocks (-1)).dropKey?).tokens
    | c :: rest => finish? fuel (← s.token? c rest)

end Lexer

/-- The tokens of a text. -/
def tokens? (text : String) : Option (List Token) := do
  let cs := text.toList
  if !cs.all isAllowed then none
  return (← Lexer.finish? (cs.length + 1) (.start cs)).toList

end LoadBench.Yaml
