/-!
The white space of all scripts: the characters with the Unicode property of that name.
-/
namespace ConfinedRelay.Text

def isWhite (c : Char) : Bool :=
  let n := c.toNat
  (0x09 ≤ n && n ≤ 0x0d) || n == 0x20 || n == 0x85 || n == 0xa0 || n == 0x1680
    || (0x2000 ≤ n && n ≤ 0x200a) || n == 0x2028 || n == 0x2029 || n == 0x202f || n == 0x205f
    || n == 0x3000

/-- A text without the white space at its end. -/
def trimEnd (s : List Char) : List Char := (s.reverse.dropWhile isWhite).reverse

/-- A text without the white space around it. -/
def trim (s : List Char) : List Char := trimEnd (s.dropWhile isWhite)

end ConfinedRelay.Text
