import UserStorage.Text.Hidden

/-!
# Quoted text

A path shown between double quotes so that every character in it can be told: quotes and
backslashes are escaped, the usual control characters have a letter, and the other characters that
do not show are written with their number.

## Main definitions

* `quoted`: a string between double quotes, with its escapes
-/

namespace UserStorage.Text

/-- The lower-case hexadecimal digits of a number. -/
def hexDigits (n : Nat) : List Char := Nat.toDigits 16 n

/-- The double quote, the single quote and the backslash stand behind a backslash. -/
def isGuarded (c : Char) : Bool := c == '\x22' || c == '\x27' || c == '\x5c'

/-- A character between quotes. -/
def escaped (c : Char) : List Char :=
  if c = '\x00' then ['\x5c', '0']
  else if c = '\t' then ['\x5c', 't']
  else if c = '\n' then ['\x5c', 'n']
  else if c = '\r' then ['\x5c', 'r']
  else if isGuarded c then ['\x5c', c]
  else if isHidden c then ['\x5c', 'u', '\x7b'] ++ hexDigits c.toNat ++ ['\x7d']
  else [c]

/-- A string between double quotes, every character escaped that needs it. -/
def quoted (s : String) : String :=
  String.ofList ('\x22' :: s.toList.flatMap escaped ++ ['\x22'])

end UserStorage.Text
