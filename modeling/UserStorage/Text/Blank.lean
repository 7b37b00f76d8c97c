/-!
# Blank characters

The Unicode characters with the property `White_Space`, and the text that is left when a string
loses them at both ends. Home strings are trimmed before a file is looked for under them, and a
setting whose text is blank counts as empty.

## Main definitions

* `isBlank`: the 25 blank characters
* `trim`: a string without the blanks at its ends
-/

namespace UserStorage.Text

/-- The Unicode property `White_Space`. -/
def isBlank (c : Char) : Bool :=
  let n := c.toNat
  (0x09 ≤ n && n ≤ 0x0D) || n == 0x20 || n == 0x85 || n == 0xA0 || n == 0x1680 ||
    (0x2000 ≤ n && n ≤ 0x200A) || n == 0x2028 || n == 0x2029 || n == 0x202F || n == 0x205F ||
    n == 0x3000

/-- A list of characters without the blanks at its ends. -/
def trimChars (cs : List Char) : List Char :=
  ((cs.dropWhile isBlank).reverse.dropWhile isBlank).reverse

/-- A string without the blanks at its ends; blanks inside stay. -/
def trim (s : String) : String := String.ofList (trimChars s.toList)

end UserStorage.Text
