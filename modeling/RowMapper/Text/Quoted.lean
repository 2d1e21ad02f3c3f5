import RowMapper.Text.Printable

/-!
# Quoted text

A text between quotes, on one line.  Single quotes are used, unless the text has a single quote
and no double quote.  The quote in use and the backslash get a backslash; line feed, carriage
return and tab have letters of their own; any other character without a printed form is written
by its code point in two, four or eight hexadecimal digits.
-/
namespace RowMapper.Text

/-- The single quote. -/
def apostrophe : Char := Char.ofNat 39

/-- One hexadecimal digit, in small letters. -/
def hexDigit (n : Nat) : Char :=
  if n < 10 then Char.ofNat (48 + n) else Char.ofNat (87 + n)

/-- The `width` lowest hexadecimal digits of a number. -/
def hexDigits : Nat → Nat → List Char
  | 0, _ => []
  | width + 1, n => hexDigits width (n / 16) ++ [hexDigit (n % 16)]

/-- The quote that a text is put between. -/
def quoteFor (cs : List Char) : Char :=
  if cs.contains apostrophe && !cs.contains '"' then '"' else apostrophe

/-- How a character stands between the given quotes. -/
def escapeChar (quote : Char) (printable : Char → Bool) (c : Char) : List Char :=
  if c == quote || c == '\\' then ['\\', c]
  else if c == '\n' then ['\\', 'n']
  else if c == '\r' then ['\\', 'r']
  else if c == '\t' then ['\\', 't']
  else if printable c then [c]
  else if c.toNat < 0x100 then ['\\', 'x'] ++ hexDigits 2 c.toNat
  else if c.toNat < 0x10000 then ['\\', 'u'] ++ hexDigits 4 c.toNat
  else ['\\', 'U'] ++ hexDigits 8 c.toNat

/-- A text between quotes. -/
def quoted (s : String) : String :=
  let cs := s.toList
  let quote := quoteFor cs
  String.ofList (quote :: cs.flatMap (escapeChar quote isPrintable) ++ [quote])

/-- Only the printed characters of ASCII. -/
def isPlainAscii (c : Char) : Bool := 32 ≤ c.toNat && c.toNat < 127

/-- A byte string between quotes, after the letter that marks it. -/
def quotedBytes (bytes : List UInt8) : String :=
  let cs := bytes.map (fun b => Char.ofNat b.toNat)
  let quote := quoteFor cs
  String.ofList ('b' :: quote :: cs.flatMap (escapeChar quote isPlainAscii) ++ [quote])

end RowMapper.Text
