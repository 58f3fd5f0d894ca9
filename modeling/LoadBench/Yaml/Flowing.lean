import LoadBench.Json.Quoted
import LoadBench.Yaml.Cursor

/-!
# Flowing scalars

Plain and quoted scalars may run over several lines. Blanks around a line break are dropped; a
single break becomes a blank, and of several all but the first are kept.

* `Gap.take?`, `Gap.fold`: the blanks and breaks between two words, and what is left of them.
* `plain?`: a plain scalar.
* `quoted?`: a scalar between quotes of either kind.
-/

namespace LoadBench.Yaml

open Json.Quoted (hexValue?)

/-! ## Gaps -/

/-- The blanks in front of the first break, and the breaks. -/
structure Gap where
  blanks : List Char
  breaks : List Char

namespace Gap

/-- No gap. -/
def none : Gap := ⟨[], []⟩

/-- The gap holds a line break. -/
def isBroken (g : Gap) : Bool := !g.breaks.isEmpty

/-- What is left of a gap between two words. -/
def fold (g : Gap) : List Char :=
  match g.breaks with
  | [] => g.blanks
  | ['\n'] => [' ']
  | '\n' :: more => more
  | breaks => breaks

/-- Reads a gap; behind a break a tab may not stand in a column before `indent`. Every step takes a
    character, so the length of the text is fuel enough. -/
def takeWithin? (indent : Nat) (joined : Bool) : Nat → Cursor → Gap → Option (Gap × Cursor)
  | 0, c, g => some (g, c)
  | fuel + 1, c, g =>
    match c.rest with
    | [] => some (g, c)
    | b :: _ =>
      let broken := joined || g.isBroken
      if isBlank b then
        if broken && b == '\t' && c.column < indent then Option.none
        else
          takeWithin? indent joined fuel (c.advance 1)
            (if broken then g else { g with blanks := g.blanks ++ [b] })
      else
        match c.takeBreak? with
        | some (ch, c') => takeWithin? indent joined fuel c' { g with breaks := g.breaks ++ [ch] }
        | Option.none => some (g, c)

/-- Reads the gap at a place; a break that does not count may have come before. -/
def take? (indent : Nat) (joined : Bool) (c : Cursor) : Option (Gap × Cursor) :=
  takeWithin? indent joined c.rest.length c none

end Gap

/-! ## Plain scalars -/

/-- The characters of a plain scalar up to a gap or to what ends it. A colon ends it in front of a
    gap, and within brackets it may not stand in front of a bracket, a comma or a question mark;
    brackets and commas end it within brackets. -/
def plainWord? (inFlow : Bool) : List Char → Option (List Char)
  | [] => some []
  | c :: rest =>
    if isGap c then some []
    else if c == ':' && inFlow && rest.head?.any (fun n => isFlowMark n || n == '?') then none
    else if c == ':' && endsWord rest then some []
    else if inFlow && isFlowMark c then some []
    else (plainWord? inFlow rest).map (c :: ·)

/-- The rest of a plain scalar, behind some text and a gap that is not yet part of it. Gives the
    text, the place behind the scalar, and whether a line break lies just before that place. -/
def plainRest? (inFlow : Bool) (indent : Nat) :
    Nat → Cursor → List Char → Gap → Option (List Char × Cursor × Bool)
  | 0, _, _, _ => none
  | fuel + 1, c, text, gap =>
    if c.atDocumentMark || c.rest.head? == some '#' then some (text, c, gap.isBroken)
    else do
      let word ← plainWord? inFlow c.rest
      let c := c.advance word.length
      let text := if word.isEmpty then text else text ++ gap.fold ++ word
      let gap := if word.isEmpty then gap else Gap.none
      if !c.rest.head?.any isGap then some (text, c, gap.isBroken)
      else
        let (gap, c) ← Gap.take? indent false c
        if !inFlow && c.column < indent then some (text, c, gap.isBroken)
        else plainRest? inFlow indent fuel c text gap

/-- A plain scalar, which ends where a line is indented less than `indent`. -/
def plain? (inFlow : Bool) (indent : Nat) (c : Cursor) : Option (List Char × Cursor × Bool) :=
  plainRest? inFlow indent (c.rest.length + 1) c [] Gap.none

/-! ## Quoted scalars -/

/-- The characters between single quotes up to a gap or the closing quote, and the number of
    characters read; a quote that is written twice stands for one. -/
def singleWord : List Char → List Char × Nat
  | [] => ([], 0)
  | '\'' :: '\'' :: rest =>
    let (cs, n) := singleWord rest
    ('\'' :: cs, n + 2)
  | c :: rest =>
    if isGap c || c == '\'' then ([], 0)
    else
      let (cs, n) := singleWord rest
      (c :: cs, n + 1)

/-- The character that an escape of one letter stands for. -/
def escaped? : Char → Option Char
  | '0' => some '\x00'
  | 'a' => some '\x07'
  | 'b' => some '\x08'
  | 't' => some '\t'
  | '\t' => some '\t'
  | 'n' => some '\n'
  | 'v' => some '\x0b'
  | 'f' => some '\x0c'
  | 'r' => some '\r'
  | 'e' => some '\x1b'
  | ' ' => some ' '
  | '"' => some '"'
  | '/' => some '/'
  | '\\' => some '\\'
  | 'N' => some '\u0085'
  | '_' => some '\u00a0'
  | 'L' => some '\u2028'
  | 'P' => some '\u2029'
  | _ => none

/-- The number of digits behind an escape that gives the code of a character; none behind the
    others. -/
def codeLength : Char → Nat
  | 'x' => 2
  | 'u' => 4
  | 'U' => 8
  | _ => 0

/-- The character that an escape stands for, given the digits behind it. -/
def decoded? (e : Char) (digits : List Char) : Option Char :=
  if codeLength e == 0 then escaped? e
  else if digits.length < codeLength e then none
  else do
    let n ← digits.foldlM (fun n d => (hexValue? d).map (16 * n + ·)) 0
    Json.Quoted.scalar? n

/-- The characters between double quotes up to a gap, the closing quote or an escaped line break.
    Gives them, the number of characters read, and whether an escaped break follows. -/
def doubleWord? : List Char → Option (List Char × Nat × Bool)
  | [] => some ([], 0, false)
  | [c] => if isGap c || c == '"' then some ([], 0, false) else some ([c], 1, false)
  | c :: e :: rest =>
    if isGap c || c == '"' then some ([], 0, false)
    else if c != '\\' then
      (doubleWord? (e :: rest)).map fun (cs, n, joined) => (c :: cs, n + 1, joined)
    else if isBreak e then some ([], 1, true)
    else do
      let ch ← decoded? e (rest.take (codeLength e))
      let (cs, n, joined) ← doubleWord? (rest.drop (codeLength e))
      return (ch :: cs, n + 2 + codeLength e, joined)
termination_by cs => cs.length
decreasing_by all_goals (simp; try omega)

/-- One word of a quoted scalar. -/
def quotedWord? (single : Bool) (cs : List Char) : Option (List Char × Nat × Bool) :=
  if single then
    let (word, n) := singleWord cs
    some (word, n, false)
  else doubleWord? cs

/-- The rest of a quoted scalar behind some text, and the place behind the closing quote. -/
def quotedRest? (single : Bool) : Nat → Cursor → List Char → Option (List Char × Cursor)
  | 0, _, _ => none
  | fuel + 1, c, text =>
    if c.atDocumentMark || c.rest.isEmpty then none
    else do
      let (word, n, joined) ← quotedWord? single c.rest
      let text := text ++ word
      let c := c.advance n
      let c ← if joined then c.takeBreak?.map Prod.snd else some c
      if c.rest.head? == some (if single then '\'' else '"') then some (text, c.advance 1)
      else
        let (gap, c) ← Gap.take? 0 joined c
        quotedRest? single fuel c (text ++ if joined then gap.breaks else gap.fold)

/-- A quoted scalar; the place is that behind the opening quote. -/
def quoted? (single : Bool) (c : Cursor) : Option (List Char × Cursor) :=
  quotedRest? single (c.rest.length + 1) c []

end LoadBench.Yaml
