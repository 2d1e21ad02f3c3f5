import RowMapper.Fault
import RowMapper.Number.Numeral

/-!
# Reading loosely typed fields

Find options and the fields of a request are read in a lax way: a byte string passes for a text, a
text that spells a number for the number, and a number without a fraction for an integer.  Each
reader answers the value or the kind of problem.
-/
namespace RowMapper.Field

/-- The text that a byte string encodes. -/
def decodeUtf8? (bytes : List UInt8) : Option String :=
  String.fromUTF8? (ByteArray.mk bytes.toArray)

/-- A text. -/
def text : Value → Except ProblemKind String
  | .strAt s _ => .ok s
  | .bytesAt b _ =>
    match decodeUtf8? b with
    | some s => .ok s
    | none => .error .stringUnicode
  | _ => .error .stringType

/-- The integer that a text spells. -/
def integerText (s : String) : Except ProblemKind Int :=
  match Numeral.laxInteger s.toList with
  | .ok n => .ok n
  | .error .malformed => .error .intParsing
  | .error (.tooLong _) => .error .intParsingSize

/-- The largest magnitude of a number that is taken for an integer. -/
def integerBound : Int := Binary64.twoTo 63

/-- The integer that a floating point number equals. -/
def integerFloat (x : Binary64) : Except ProblemKind Int :=
  match x.truncate? with
  | none => .error .finiteNumber
  | some n =>
    if !x.isIntegral then .error .intFromFloat
    else if -integerBound < n && n < integerBound then .ok n
    else .error .intParsingSize

/-- An integer. -/
def integer : Value → Except ProblemKind Int
  | .intAt n _ => .ok n
  | .bool b => .ok (if b then 1 else 0)
  | .strAt s _ => integerText s
  | .bytesAt b _ =>
    match decodeUtf8? b with
    | some s => integerText s
    | none => .error .intParsing
  | .floatAt x _ => integerFloat x
  | _ => .error .intType

/-- An integer that is at least one. -/
def positive (v : Value) : Except ProblemKind Int := do
  let n ← integer v
  if n < 1 then .error .atLeast else .ok n

/-- A floating point number. -/
def float : Value → Except ProblemKind Binary64
  | .floatAt x _ => .ok x
  | .bool b => .ok (Binary64.ofRatio false (if b then 1 else 0) 1)
  | .intAt n _ =>
    match Binary64.ofInt? n with
    | some x => .ok x
    | none => .error .floatType
  | .strAt s _ =>
    match Numeral.laxFloat? s.toList with
    | some x => .ok x
    | none => .error .floatParsing
  | _ => .error .floatType

/-- A field that may be null. -/
def optional {α : Type} (read : Value → Except ProblemKind α) :
    Value → Except ProblemKind (Option α)
  | .null => .ok none
  | v => (read v).map some

end RowMapper.Field
