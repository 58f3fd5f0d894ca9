/-!
# Columns of text

Texts fitted to a number of characters, and lines put together. Characters are counted as code
points, whatever their width on a screen.

* `padStart`, `padEnd`: a text brought to a width with blanks; a wider one stays as it is.
* `truncate`: a text cut to a width, an ellipsis in place of what is lost.
* `unlines`: lines, each with its end.
-/

namespace LoadBench.Text

/-- A text with blanks in front, up to a width. -/
def padStart (width : Nat) (s : String) : String :=
  String.ofList (List.replicate (width - s.length) ' ' ++ s.toList)

/-- A text with blanks behind, up to a width. -/
def padEnd (width : Nat) (s : String) : String :=
  String.ofList (s.toList ++ List.replicate (width - s.length) ' ')

/-- A text of at most `width` characters: a longer one is cut and ends in an ellipsis. -/
def truncate (width : Nat) (s : String) : String :=
  if s.length ≤ width then s else String.ofList (s.toList.take (width - 1) ++ ['…'])

/-- Lines, each with its end. -/
def unlines (lines : List String) : String := String.join (lines.map (· ++ "\n"))

/-- Lines with an end between them. -/
def joinLines (lines : List String) : String := "\n".intercalate lines

end LoadBench.Text
