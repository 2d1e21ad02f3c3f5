/-!
# Blank characters

Two sets of white space.  `isBlank` counts the four information separators U+001C to U+001F;
`isWhite` is the White_Space property of the Unicode standard, which does not.
-/
namespace RowMapper.Text

/-- The White_Space property of the Unicode standard. -/
def isWhite (c : Char) : Bool :=
  let n := c.toNat
  (9 ≤ n && n ≤ 13) || n == 0x20 || n == 0x85 || n == 0xa0 || n == 0x1680 ||
    (0x2000 ≤ n && n ≤ 0x200a) || n == 0x2028 || n == 0x2029 || n == 0x202f || n == 0x205f ||
    n == 0x3000

/-- White space, or one of the four information separators. -/
def isBlank (c : Char) : Bool :=
  isWhite c || (0x1c ≤ c.toNat && c.toNat ≤ 0x1f)

/-- The characters left when those in `skip` are taken off both ends. -/
def trimChars (skip : Char → Bool) (cs : List Char) : List Char :=
  ((cs.dropWhile skip).reverse.dropWhile skip).reverse

/-- The text without blanks at its ends. -/
def trim (s : String) : String := String.ofList (trimChars isBlank s.toList)

end RowMapper.Text
