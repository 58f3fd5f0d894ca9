/-!
# Blank characters

The characters with the Unicode property `White_Space`, and texts with blanks cut off their ends.

* `isBlank`: the property.
* `trim`, `trimStart`: a text without the blanks around it.
-/

namespace LoadBench.Text

/-- The character has the Unicode property `White_Space`. -/
def isBlank (c : Char) : Bool :=
  let n := c.toNat
  (0x9 ≤ n && n ≤ 0xD) || n == 0x20 || n == 0x85 || n == 0xA0 || n == 0x1680
    || (0x2000 ≤ n && n ≤ 0x200A) || n == 0x2028 || n == 0x2029 || n == 0x202F || n == 0x205F
    || n == 0x3000

/-- A text without the blanks in front. -/
def trimStart (s : String) : String := String.ofList (s.toList.dropWhile isBlank)

/-- A list of characters without those at its end that have a property. -/
def dropEndWhile (p : Char → Bool) (cs : List Char) : List Char :=
  (cs.reverse.dropWhile p).reverse

/-- A text without the blanks in front and behind. -/
def trim (s : String) : String :=
  String.ofList (dropEndWhile isBlank (s.toList.dropWhile isBlank))

/-- A text with its ASCII capitals lowered. -/
def lowerAscii (s : String) : String := String.ofList (s.toList.map Char.toLower)

end LoadBench.Text
