import LoadBench.Data
import LoadBench.Decimal.Layout
import LoadBench.Json.Quoted

/-!
# Writing JSON

* `compact`: a value without blanks.
* `pretty`: a value over several lines, two blanks a level; an empty list or record stays on one.

Numbers that are not finite have no JSON form and are written as `null`.
-/

namespace LoadBench.Json

/-- A quoted string. -/
def quoted (s : String) : List Char := '"' :: Quoted.encode s.toList ++ ['"']

/-- A leaf; containers are written by the functions below. -/
def leaf : Data → List Char
  | .null => "null".toList
  | .flag b => (if b then "true" else "false").toList
  | .integer n => (if n < 0 then ['-'] else []) ++ digitsOf n.natAbs
  | .real x => if x.isFinite then (NumberFormat.document.render x).toList else "null".toList
  | .text s => quoted s
  | .list _ | .record _ => []

/-- The end of a line and the blanks that open the next one. -/
def newLine (level : Nat) : List Char := '\n' :: List.replicate (2 * level) ' '

mutual

/-- A value without blanks. -/
def compactChars : Data → List Char
  | .list items => '[' :: compactItems items
  | .record fields => '\x7b' :: compactFields fields
  | d => leaf d

/-- The items of a list and its closing bracket. -/
def compactItems : List Data → List Char
  | [] => [']']
  | [d] => compactChars d ++ [']']
  | d :: e :: rest => compactChars d ++ ',' :: compactItems (e :: rest)

/-- The fields of a record and its closing brace. -/
def compactFields : List (String × Data) → List Char
  | [] => ['\x7d']
  | [(k, d)] => quoted k ++ ':' :: compactChars d ++ ['\x7d']
  | (k, d) :: f :: rest => quoted k ++ ':' :: compactChars d ++ ',' :: compactFields (f :: rest)

end

mutual

/-- A value over several lines, opened at a level. -/
def prettyChars (level : Nat) : Data → List Char
  | .list [] => ['[', ']']
  | .list (d :: rest) =>
    '[' :: newLine (level + 1) ++ prettyChars (level + 1) d ++ prettyItems level rest
  | .record [] => ['\x7b', '\x7d']
  | .record ((k, d) :: rest) =>
    '\x7b' :: newLine (level + 1) ++ quoted k ++ [':', ' '] ++ prettyChars (level + 1) d
      ++ prettyFields level rest
  | d => leaf d

/-- The further items of a list, each behind a comma on a line of its own, and the bracket. -/
def prettyItems (level : Nat) : List Data → List Char
  | [] => newLine level ++ [']']
  | d :: rest => ',' :: newLine (level + 1) ++ prettyChars (level + 1) d ++ prettyItems level rest

/-- The further fields of a record, each behind a comma on a line of its own, and the brace. -/
def prettyFields (level : Nat) : List (String × Data) → List Char
  | [] => newLine level ++ ['\x7d']
  | (k, d) :: rest =>
    ',' :: newLine (level + 1) ++ quoted k ++ [':', ' '] ++ prettyChars (level + 1) d
      ++ prettyFields level rest

end

/-- A value without blanks. -/
def compact (d : Data) : String := String.ofList (compactChars d)

/-- A value over several lines. -/
def pretty (d : Data) : String := String.ofList (prettyChars 0 d)

end LoadBench.Json
