/-!
# Characters in units of 16 bits

A character beyond the first 65536 takes two units of 16 bits, a high half and a low half, from
ranges that hold no characters.  A half that stands alone is replaced.
-/
namespace RowMapper.Text

/-- Whether a number is the first half of a pair. -/
def isHighHalf (n : Nat) : Bool := 0xd800 ≤ n && n < 0xdc00

/-- Whether a number is the second half of a pair. -/
def isLowHalf (n : Nat) : Bool := 0xdc00 ≤ n && n < 0xe000

/-- The character of a number; a half without its other half is replaced. -/
def charOf (n : Nat) : Char :=
  if isHighHalf n || isLowHalf n then Char.ofNat 0xfffd else Char.ofNat n

/-- The character of a pair of halves. -/
def charOfPair (high low : Nat) : Char :=
  Char.ofNat (0x10000 + (high - 0xd800) * 0x400 + (low - 0xdc00))

/-- The characters of units. -/
def charsOfUnits : List Nat → List Char
  | [] => []
  | [n] => [charOf n]
  | m :: n :: rest =>
    if isHighHalf m && isLowHalf n then charOfPair m n :: charsOfUnits rest
    else charOf m :: charsOfUnits (n :: rest)

end RowMapper.Text
