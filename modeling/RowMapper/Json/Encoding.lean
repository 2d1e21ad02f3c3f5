import RowMapper.Text.Unit16

/-!
# Encodings of JSON documents

A document arrives as bytes.  It starts with a character of ASCII unless it is malformed, so the
zeros among its first bytes tell how wide its units are and in which order their bytes come.
-/
namespace RowMapper.Json

/-- The order of the bytes in a unit. -/
inductive ByteOrder where
  | bigFirst | littleFirst
  deriving DecidableEq, Inhabited

/-- The encodings of a document, by the width of their units. -/
inductive Encoding where
  | utf8
  | utf16 (order : ByteOrder)
  | utf32 (order : ByteOrder)
  deriving DecidableEq, Inhabited

/-- The encoding that the first bytes tell; only two bytes can also be one unit of 16 bits. -/
def Encoding.detect : List UInt8 → Encoding
  | b₀ :: b₁ :: b₂ :: b₃ :: _ =>
    if b₀ = 0 then (if b₁ = 0 then .utf32 .bigFirst else .utf16 .bigFirst)
    else if b₁ = 0 then (if b₂ = 0 && b₃ = 0 then .utf32 .littleFirst else .utf16 .littleFirst)
    else .utf8
  | [b₀, b₁] =>
    if b₀ = 0 then .utf16 .bigFirst else if b₁ = 0 then .utf16 .littleFirst else .utf8
  | _ => .utf8

/-- The number that bytes spell in an order. -/
def ByteOrder.number (order : ByteOrder) (bytes : List UInt8) : Nat :=
  let high := match order with
    | .bigFirst => bytes
    | .littleFirst => bytes.reverse
  high.foldl (fun n b => 256 * n + b.toNat) 0

/-- The units of two bytes; the bytes have to fill them. -/
def units16? (order : ByteOrder) : List UInt8 → Option (List Nat)
  | [] => some []
  | b₀ :: b₁ :: rest => (units16? order rest).map (order.number [b₀, b₁] :: ·)
  | _ => none

/-- The units of four bytes; the bytes have to fill them. -/
def units32? (order : ByteOrder) : List UInt8 → Option (List Nat)
  | [] => some []
  | b₀ :: b₁ :: b₂ :: b₃ :: rest =>
    (units32? order rest).map (order.number [b₀, b₁, b₂, b₃] :: ·)
  | _ => none

/-- The largest number of a character. -/
def lastCharacter : Nat := 0x10ffff

/-- The characters of a document whose bytes are those of a text in UTF-8. -/
def decode? (text : String) : Option (List Char) :=
  let bytes := text.toUTF8.toList
  match Encoding.detect bytes with
  | .utf8 => some text.toList
  | .utf16 order => (units16? order bytes).map Text.charsOfUnits
  | .utf32 order =>
    (units32? order bytes).bind fun units =>
      if units.all (· ≤ lastCharacter) then some (units.map Text.charOf) else none

end RowMapper.Json
