/-!
# Blank characters

The characters of Unicode's `White_Space` property, and cutting them off both ends of a text.
-/

namespace Rollout.Text

def isBlank (c : Char) : Bool :=
  let n := c.toNat
  (9 ≤ n && n ≤ 13) || n == 0x20 || n == 0x85 || n == 0xA0 || n == 0x1680 ||
  (0x2000 ≤ n && n ≤ 0x200A) || n == 0x2028 || n == 0x2029 || n == 0x202F || n == 0x205F ||
  n == 0x3000

/-- The text without the blank characters at its ends. -/
def trimChars (s : List Char) : List Char :=
  ((s.dropWhile isBlank).reverse.dropWhile isBlank).reverse

def trim (s : String) : String := String.ofList (trimChars s.toList)

/-- ASCII letters in lower case; all other characters stay. -/
def lower (s : String) : String := String.ofList (s.toList.map Char.toLower)

def sameUpToCase (s t : String) : Bool := lower s == lower t

end Rollout.Text
