import RowMapper.Text.Digit

/-!
# Percent escapes

In an address a percent sign with two hexadecimal digits stands for a byte.  Bytes are read as UTF-8.
Where a character is broken off, what there is of it is replaced as a whole.
-/
namespace RowMapper.Text

/-- The bytes of a text whose escapes are read; a percent sign without digits stays. -/
def percentBytes : List Char → List UInt8
  | [] => []
  | '%' :: a :: b :: rest =>
    match hexValue? a, hexValue? b with
    | some high, some low => UInt8.ofNat (16 * high + low) :: percentBytes rest
    | _, _ => '%'.toUInt8 :: percentBytes (a :: b :: rest)
  | c :: rest => (String.singleton c).toUTF8.toList ++ percentBytes rest

/-- The one character that bytes encode. -/
def charOfBytes? (bytes : List UInt8) : Option Char :=
  match (String.fromUTF8? (ByteArray.mk bytes.toArray)).map String.toList with
  | some [c] => some c
  | _ => none

/-- The second bytes that can follow the first byte of a character of more than two bytes. -/
def secondBytes? (first : UInt8) : Option (UInt8 × UInt8) :=
  if first < 0xe0 || 0xf4 < first then none
  else if first = 0xe0 then some (0xa0, 0xbf)
  else if first = 0xed then some (0x80, 0x9f)
  else if first = 0xf0 then some (0x90, 0xbf)
  else if first = 0xf4 then some (0x80, 0x8f)
  else some (0x80, 0xbf)

/-- Whether a byte can stand inside a character. -/
def isInnerByte (b : UInt8) : Bool := 0x80 ≤ b && b ≤ 0xbf

/-- How many bytes in front belong to a character that is broken off. -/
def brokenLength (bytes : List UInt8) : Nat :=
  match bytes with
  | first :: second :: rest =>
    match secondBytes? first with
    | some (low, high) =>
      if second < low || high < second then 1
      else if 0xf0 ≤ first && rest.head?.any isInnerByte then 3
      else 2
    | none => 1
  | _ => 1

/-- The character in front of bytes, with the number of bytes that it takes. -/
def firstChar (bytes : List UInt8) : Char × Nat :=
  match [1, 2, 3, 4].findSome? fun n => (charOfBytes? (bytes.take n)).map fun c => (c, n) with
  | some found => found
  | none => (Char.ofNat 0xfffd, brokenLength bytes)

/-- The characters that bytes encode; `steps` bounds their number. -/
def decodeWithin : Nat → List UInt8 → List Char
  | 0, _ => []
  | _ + 1, [] => []
  | steps + 1, bytes =>
    let (c, n) := firstChar bytes
    c :: decodeWithin steps (bytes.drop n)

/-- A text whose percent escapes are read. -/
def percentDecode (s : String) : String :=
  let bytes := percentBytes s.toList
  String.ofList (decodeWithin bytes.length bytes)

end RowMapper.Text
