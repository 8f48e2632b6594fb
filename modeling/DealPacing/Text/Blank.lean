/-!
# White space

The characters with the Unicode property `White_Space`.

## Main definitions

* `Text.isBlank`: the property
* `Text.trim`, `Text.trimStart`: a text without the blanks around it, or in front of it
-/

namespace DealPacing.Text

/-- The character has the property `White_Space`. -/
def isBlank (c : Char) : Bool :=
  let n := c.toNat
  (0x9 ≤ n && n ≤ 0xD) || n == 0x20 || n == 0x85 || n == 0xA0 || n == 0x1680 ||
    (0x2000 ≤ n && n ≤ 0x200A) || n == 0x2028 || n == 0x2029 || n == 0x202F || n == 0x205F ||
    n == 0x3000

/-- Drop the blanks in front of a text. -/
def trimStart (cs : List Char) : List Char := cs.dropWhile isBlank

/-- Drop the blanks around a text. -/
def trimChars (cs : List Char) : List Char := (trimStart (trimStart cs).reverse).reverse

/-- Drop the blanks around a text. -/
def trim (s : String) : String := String.ofList (trimChars s.toList)

end DealPacing.Text
