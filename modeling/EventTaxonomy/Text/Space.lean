/-!
# White space

The characters that count as white space in running text. JSON itself knows only four of them.
-/

namespace EventTaxonomy

namespace Text

/-- The character is white space. -/
def isSpace (c : Char) : Bool :=
  let n := c.toNat
  (9 ≤ n && n ≤ 13) || n = 0x20 || n = 0x85 || n = 0xa0 || n = 0x1680 ||
    (0x2000 ≤ n && n ≤ 0x200a) || n = 0x2028 || n = 0x2029 || n = 0x202f || n = 0x205f || n = 0x3000

end Text

end EventTaxonomy
