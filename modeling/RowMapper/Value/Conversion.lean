import RowMapper.Fault
import RowMapper.Number.Numeral

/-!
# Conversions of values

The elements that a value yields one by one, and the integer that it stands for, also as a text.
-/
namespace RowMapper.Value

/-- What a value yields element by element: a text its characters, a byte string its numbers, a
mapping its keys. -/
def elements : Value → Except Fault (List Value)
  | .listAt items _ => .ok items
  | .tupleAt items _ => .ok items
  | .mappingAt entries _ => .ok (entries.map (·.1))
  | .strAt s _ => .ok (s.toList.map (fun c => .str (String.singleton c)))
  | .bytesAt b _ => .ok (b.map (fun n => .int n.toNat))
  | _ => .error .wrongType

/-- How much of a literal stands in the complaint that it is no integer. -/
def shownLength : Nat := 200

/-- The integer that a text spells, with the literal whose start stands in the complaint. -/
def readInteger (digit? : Char → Option Nat) (cs : List Char) (literal : String) :
    Except Fault Int :=
  match Numeral.integer digit? cs with
  | .ok n => .ok n
  | .error .malformed =>
    .error (.badValue (.notInteger (String.ofList (literal.toList.take shownLength))))
  | .error (.tooLong digits) => .error (.badValue (.tooManyDigits digits))

/-- The digits of a byte string are those of ASCII; any other high byte spoils it. -/
def byteChar (b : UInt8) : Char := if b < 128 then Char.ofNat b.toNat else '?'

/-- The integer that a value stands for: a number is cut toward zero, a text is read. -/
def toInteger : Value → Except Fault Int
  | .bool b => .ok (if b then 1 else 0)
  | .intAt n _ => .ok n
  | .floatAt .nan _ => .error (.badValue .nanAsInteger)
  | .floatAt (.infinity _) _ => .error (.overflow "cannot convert float infinity to integer")
  | .floatAt x _ => .ok (x.truncate?.getD 0)
  | .strAt s _ => readInteger Text.digitValue? s.toList (Text.quoted s)
  | .bytesAt b _ => readInteger Text.asciiDigit? (b.map byteChar) (Text.quotedBytes b)
  | _ => .error .wrongType

/-- The integer that a value stands for, written out; one with too many digits is not written. -/
def integerText (v : Value) : Except Fault String := do
  let n ← v.toInteger
  if (toString n.natAbs).length > Numeral.maxDigits then throw (.badValue .tooLongToWrite)
  return toString n

end RowMapper.Value
