/-!
# Blank text

The characters with the Unicode property White_Space, and texts that hold
nothing else. Zero-width characters such as U+200B and U+FEFF do not have the
property, so a text that holds one of them is not blank.
-/

namespace HeaderSchema

/-- The characters with the property White_Space. -/
def isWhiteSpace (c : Char) : Bool :=
  let n := c.toNat
  (0x09 ≤ n && n ≤ 0x0D) || n == 0x20 || n == 0x85 || n == 0xA0 || n == 0x1680 ||
    (0x2000 ≤ n && n ≤ 0x200A) || n == 0x2028 || n == 0x2029 || n == 0x202F ||
    n == 0x205F || n == 0x3000

/-- Nothing is left of the text once white space is trimmed from its ends. -/
def isBlank (text : String) : Bool :=
  text.toList.all isWhiteSpace

end HeaderSchema
