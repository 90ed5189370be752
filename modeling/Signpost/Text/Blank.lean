/-!
# Blank characters

The characters of Unicode's `White_Space` property, and texts with the blanks at their ends removed.
-/
namespace Signpost.Text

/-- Membership in Unicode's `White_Space` property. -/
def isBlank (c : Char) : Bool :=
  let n := c.toNat
  (9 ≤ n && n ≤ 13) || n == 0x20 || n == 0x85 || n == 0xA0 || n == 0x1680 ||
    (0x2000 ≤ n && n ≤ 0x200A) || n == 0x2028 || n == 0x2029 || n == 0x202F || n == 0x205F ||
    n == 0x3000

/-- The characters up to the last one outside the class. -/
def dropLastWhile (p : Char → Bool) (cs : List Char) : List Char :=
  (cs.reverse.dropWhile p).reverse

def trimStart (cs : List Char) : List Char := cs.dropWhile isBlank

def trimEnd (cs : List Char) : List Char := dropLastWhile isBlank cs

def trim (cs : List Char) : List Char := trimEnd (trimStart cs)

end Signpost.Text
