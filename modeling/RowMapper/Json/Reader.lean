import RowMapper.Number.Numeral
import RowMapper.Text.Unit16
import RowMapper.Value.Basic

/-!
# Reading JSON

A JSON text is read into a value.  Besides the numbers of JSON the words `NaN`, `Infinity` and
`-Infinity` are read; of two entries with one name the last value counts.  A malformed text is
reported with the place where the reading stopped.

Every reader takes the rest of the text and answers what is left after it.  A place is given by the
number of characters from there to the end, which needs no counting on the way.
-/
namespace RowMapper.Json

/-! ## 1. What can be wrong -/

/-- What is wrong with a JSON text. -/
inductive Complaint where
  | value | extraData | propertyName | colon | comma | controlCharacter | escape | unicodeEscape
  | unterminated | byteOrderMark
  deriving DecidableEq, Inhabited

/-- The wording of a complaint. -/
def Complaint.text : Complaint → String
  | .value => "Expecting value"
  | .extraData => "Extra data"
  | .propertyName => "Expecting property name enclosed in double quotes"
  | .colon => "Expecting ':' delimiter"
  | .comma => "Expecting ',' delimiter"
  | .controlCharacter => "Invalid control character at"
  | .escape => "Invalid \\escape"
  | .unicodeEscape => "Invalid \\uXXXX escape"
  | .unterminated => "Unterminated string starting at"
  | .byteOrderMark => "Unexpected UTF-8 BOM (decode using utf-8-sig)"

/-- Why reading stops: the text is malformed, seen with `left` characters to go, or a number has too
many digits, or lists and mappings stand too deep inside each other. -/
inductive Stop where
  | malformed (complaint : Complaint) (left : Nat)
  | tooManyDigits (digits : Nat)
  | tooDeep
  deriving Inhabited

/-- Stops in front of the rest of the text. -/
def stop {α : Type} (complaint : Complaint) (rest : List Char) : Except Stop α :=
  .error (.malformed complaint rest.length)

/-! ## 2. Blanks and words -/

/-- White space between the parts of a text. -/
def isSpace (c : Char) : Bool := c == ' ' || c == '\t' || c == '\n' || c == '\r'

/-- The text after the white space in front of it. -/
def skipSpace (cs : List Char) : List Char := cs.dropWhile isSpace

/-- The words with a value of their own. -/
def words : List (List Char × Value) := [
  ("null".toList, .null), ("true".toList, .bool true), ("false".toList, .bool false),
  ("NaN".toList, .float .nan), ("Infinity".toList, .float (.infinity false)),
  ("-Infinity".toList, .float (.infinity true))]

/-- The word in front of a text. -/
def word? (cs : List Char) : Option (Value × List Char) :=
  (words.find? fun entry => entry.1.isPrefixOf cs).map fun entry =>
    (entry.2, cs.drop entry.1.length)

/-! ## 3. Numbers -/

/-- A run of digits and the text after it. -/
def digitsOf (cs : List Char) : List Char × List Char :=
  (cs.takeWhile Char.isDigit, cs.dropWhile Char.isDigit)

/-- The digits before the point: a zero stands alone. -/
def wholePart? : List Char → Option (List Char × List Char)
  | '0' :: rest => some (['0'], rest)
  | cs =>
    match digitsOf cs with
    | ([], _) => none
    | found => some found

/-- The point with the digits after it, if there are any. -/
def fractionPart : List Char → List Char × List Char
  | '.' :: rest =>
    match digitsOf rest with
    | ([], _) => ([], '.' :: rest)
    | (digits, after) => ('.' :: digits, after)
  | cs => ([], cs)

/-- The sign in front of an exponent. -/
def exponentSign : List Char → List Char × List Char
  | '+' :: rest => (['+'], rest)
  | '-' :: rest => (['-'], rest)
  | cs => ([], cs)

/-- The exponent, if there are digits in it. -/
def exponentPart : List Char → List Char × List Char
  | [] => ([], [])
  | c :: rest =>
    if c == 'e' || c == 'E' then
      let (sign, after) := exponentSign rest
      match digitsOf after with
      | ([], _) => ([], c :: rest)
      | (digits, after) => ('e' :: sign ++ digits, after)
    else ([], c :: rest)

/-- The number that the digits spell. -/
def integerOf (negative : Bool) (digits : List Char) : Except Stop Value :=
  if digits.length > Numeral.maxDigits then .error (.tooManyDigits digits.length)
  else
    let n := Numeral.ofDigits (digits.map fun c => c.toNat - 48)
    .ok (.int (Numeral.signed negative n))

/-- A number: with a fraction or an exponent it is a floating point number. -/
def number (cs : List Char) : Except Stop (Value × List Char) := do
  let (negative, unsigned) := match cs with
    | '-' :: rest => (true, rest)
    | _ => (false, cs)
  match wholePart? unsigned with
  | none => stop .value cs
  | some (whole, rest) =>
    let (fraction, rest) := fractionPart rest
    let (exponent, rest) := exponentPart rest
    if fraction.isEmpty && exponent.isEmpty then return (← integerOf negative whole, rest)
    match Numeral.decimal? negative (whole ++ fraction ++ exponent) with
    | some x => return (.float x, rest)
    | none => stop .value cs

/-! ## 4. Strings -/

/-- The character that a letter after a backslash stands for. -/
def escaped? : Char → Option Char
  | '"' => some '"'
  | '\\' => some '\\'
  | '/' => some '/'
  | 'b' => some '\x08'
  | 'f' => some '\x0c'
  | 'n' => some '\n'
  | 'r' => some '\r'
  | 't' => some '\t'
  | _ => none

/-- The number that four hexadecimal digits in front of a text spell; the text has to go on after
them. -/
def unit? : List Char → Option (Nat × List Char)
  | a :: b :: c :: d :: e :: rest => do
    let high := (← Text.hexValue? a) * 16 + (← Text.hexValue? b)
    let low := (← Text.hexValue? c) * 16 + (← Text.hexValue? d)
    return (high * 256 + low, e :: rest)
  | _ => none

/-- The second half of a pair in front of a text; a malformed one is refused. -/
def lowHalf? (rest : List Char) : Except Stop (Option (Nat × List Char)) :=
  match rest with
  | '\\' :: 'u' :: digits =>
    if digits.length < 5 then .ok none
    else
      match unit? digits with
      | some (low, after) => .ok (if Text.isLowHalf low then some (low, after) else none)
      | none => stop .unicodeEscape ('u' :: digits)
  | _ => .ok none

/-- The character of an escape, read after the letter that marks it. -/
def unicodeEscape (digits : List Char) : Except Stop (Char × List Char) :=
  match unit? digits with
  | none => stop .unicodeEscape ('u' :: digits)
  | some (n, rest) =>
    if Text.isHighHalf n then do
      match ← lowHalf? rest with
      | some (low, after) => return (Text.charOfPair n low, after)
      | none => return (Text.charOf n, rest)
    else .ok (Text.charOf n, rest)

/-- One character of a string, or nothing at its closing quote.  `opening` is the text from the
opening quote on. -/
def stringChar (opening : List Char) : List Char → Except Stop (Option Char × List Char)
  | [] => stop .unterminated opening
  | '"' :: rest => .ok (none, rest)
  | ['\\'] => stop .unterminated opening
  | '\\' :: 'u' :: digits => (unicodeEscape digits).map fun found => (some found.1, found.2)
  | '\\' :: c :: rest =>
    match escaped? c with
    | some meant => .ok (some meant, rest)
    | none => stop .escape ('\\' :: c :: rest)
  | c :: rest => if c.toNat < 0x20 then stop .controlCharacter (c :: rest) else .ok (some c, rest)

/-- The characters of a string up to its closing quote; `steps` bounds their number. -/
def stringChars (opening : List Char) : Nat → List Char → Except Stop (List Char × List Char)
  | 0, _ => stop .unterminated opening
  | steps + 1, cs => do
    match ← stringChar opening cs with
    | (none, rest) => return ([], rest)
    | (some c, rest) =>
      let (others, last) ← stringChars opening steps rest
      return (c :: others, last)

/-- A string, read after its opening quote.  It has no more characters than the text. -/
def string (cs : List Char) : Except Stop (String × List Char) := do
  let (chars, rest) ← stringChars ('"' :: cs) (cs.length + 1) cs
  return (String.ofList chars, rest)

/-! ## 5. Values -/

mutual

/-- A value; `steps` bounds the number of values and entries that it is made of, and `depth` how
many lists and mappings stand inside each other. -/
def valueWithin : Nat → Nat → List Char → Except Stop (Value × List Char)
  | 0, _, cs => stop .value cs
  | _ + 1, _, '"' :: cs => do
    let (s, rest) ← string cs
    return (.str s, rest)
  | _ + 1, 0, '[' :: _ => .error .tooDeep
  | _ + 1, 0, '\x7b' :: _ => .error .tooDeep
  | steps + 1, depth + 1, '[' :: cs =>
    match skipSpace cs with
    | ']' :: rest => .ok (.list [], rest)
    | inside => do
      let (items, rest) ← itemsWithin steps depth inside
      return (.list items, rest)
  | steps + 1, depth + 1, '\x7b' :: cs =>
    match skipSpace cs with
    | '\x7d' :: rest => .ok (.mapping [], rest)
    | inside => do
      let (entries, rest) ← entriesWithin steps depth inside []
      return (.mapping entries, rest)
  | _ + 1, _, cs =>
    match word? cs with
    | some found => .ok found
    | none => number cs

/-- The items of a list up to its closing bracket. -/
def itemsWithin : Nat → Nat → List Char → Except Stop (List Value × List Char)
  | 0, _, cs => stop .value cs
  | steps + 1, depth, cs => do
    let (item, rest) ← valueWithin steps depth cs
    match skipSpace rest with
    | ']' :: after => return ([item], after)
    | ',' :: after =>
      let (others, last) ← itemsWithin steps depth (skipSpace after)
      return (item :: others, last)
    | after => stop .comma after

/-- The entries of a mapping up to its closing brace. -/
def entriesWithin : Nat → Nat → List Char → Entries → Except Stop (Entries × List Char)
  | 0, _, cs, _ => stop .value cs
  | steps + 1, depth, '"' :: cs, entries => do
    let (name, rest) ← string cs
    match skipSpace rest with
    | ':' :: after =>
      let (value, rest) ← valueWithin steps depth (skipSpace after)
      let entries := Entries.insert entries (.str name) value
      match skipSpace rest with
      | '\x7d' :: last => return (entries, last)
      | ',' :: after => entriesWithin steps depth (skipSpace after) entries
      | after => stop .comma after
    | after => stop .colon after
  | _ + 1, _, cs, _ => stop .propertyName cs

end

/-- How many lists and mappings may stand inside each other. -/
def maxDepth : Nat := 990

/-- The value of a whole text.  Between two steps that take no character there is one that does, so
twice the length of the text bounds them. -/
def read (text : List Char) : Except Stop Value := do
  let (value, rest) ← valueWithin (2 * text.length + 2) maxDepth (skipSpace text)
  match skipSpace rest with
  | [] => return value
  | extra => stop .extraData extra

/-! ## 6. Places -/

/-- The character that a text may start with to show its encoding. -/
def byteOrderMark : Char := Char.ofNat 0xfeff

/-- Reads a text that must not show its encoding. -/
def readText (text : List Char) : Except Stop Value :=
  if text.head? = some byteOrderMark then stop .byteOrderMark text else read text

/-- A place in a text: its line and column, both from one, and its offset from zero. -/
def placeText (text : List Char) (offset : Nat) : String :=
  let before := text.take offset
  let line := before.count '\n' + 1
  let column := (before.reverse.takeWhile (· != '\n')).length + 1
  "line " ++ toString line ++ " column " ++ toString column ++ " (char " ++ toString offset ++ ")"

/-- What is wrong with a text, and where. -/
def describe (text : List Char) (complaint : Complaint) (left : Nat) : String :=
  complaint.text ++ ": " ++ placeText text (text.length - left)

end RowMapper.Json
