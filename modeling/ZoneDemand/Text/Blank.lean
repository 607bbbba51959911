/-!
# Blank characters

The characters with the Unicode property `White_Space`, and the removal of
characters from the ends of a text.
-/

namespace ZoneDemand

/-- The property `White_Space`. -/
def isBlank (c : Char) : Bool :=
  let n := c.toNat
  (0x09 ≤ n && n ≤ 0x0D) || n == 0x20 || n == 0x85 || n == 0xA0 || n == 0x1680 ||
    (0x2000 ≤ n && n ≤ 0x200A) || n == 0x2028 || n == 0x2029 || n == 0x202F ||
    n == 0x205F || n == 0x3000

def skipBlank (text : List Char) : List Char := text.dropWhile isBlank

/-- Removes the characters satisfying `p` from the right end. -/
def dropRightWhile (p : Char → Bool) (text : List Char) : List Char :=
  (text.reverse.dropWhile p).reverse

/-- Removes the characters satisfying `p` from both ends. -/
def stripBoth (p : Char → Bool) (text : List Char) : List Char :=
  dropRightWhile p (text.dropWhile p)

end ZoneDemand
