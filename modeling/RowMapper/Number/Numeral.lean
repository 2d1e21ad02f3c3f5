import RowMapper.Number.Binary64
import RowMapper.Text.Blank
import RowMapper.Text.Digit

/-!
# Reading numbers from text

Two ways of reading are in use.

* The general one (`integer`, `float?`) takes digits of any script, white space at the ends, a
  sign, and single underscores between digits.
* The lax one of form fields (`laxInteger`, `laxFloat?`) takes ASCII digits, and lets an integer
  carry leading zeros and a fraction of zeros.
-/
namespace RowMapper.Numeral

open Text

/-- Why a text is not an integer. -/
inductive Fault where
  | malformed
  | tooLong (digits : Nat)

/-- The most digits that an integer may have in a text. -/
def maxDigits : Nat := 4300

/-- The number that ascending digits spell. -/
def ofDigits (digits : List Nat) : Nat := digits.foldl (fun n d => 10 * n + d) 0

/-- A sign in front, and the rest. -/
def splitSign : List Char → Bool × List Char
  | '-' :: rest => (true, rest)
  | '+' :: rest => (false, rest)
  | cs => (false, cs)

/-- A magnitude with its sign. -/
def signed (negative : Bool) (n : Nat) : Int := if negative then -n else n

/-! ## 1. General integers -/

/-- The digits at the front, in which single underscores may stand between two digits, and what
follows them.  The flag says that a digit has to come next. -/
def digitRun (digit? : Char → Option Nat) : Bool → List Char → Option (List Nat × List Char)
  | needed, [] => if needed then none else some ([], [])
  | needed, c :: cs =>
    match digit? c with
    | some d => (digitRun digit? false cs).map fun (digits, rest) => (d :: digits, rest)
    | none =>
      if needed then none
      else if c == '_' then digitRun digit? true cs
      else some ([], c :: cs)

/-- An integer, or why the text is none.  Too many digits are noticed before anything behind them
is. -/
def integer (digit? : Char → Option Nat) (cs : List Char) : Except Fault Int :=
  let (negative, body) := splitSign (trimChars isWhite cs)
  match digitRun digit? true body with
  | none => .error .malformed
  | some (digits, rest) =>
    if maxDigits < digits.length then .error (.tooLong digits.length)
    else if rest.isEmpty then .ok (signed negative (ofDigits digits))
    else .error .malformed

/-! ## 2. Floating point numbers -/

/-- The digits at the front, and the rest. -/
def takeDigits : List Char → List Nat × List Char
  | [] => ([], [])
  | c :: cs =>
    match asciiDigit? c with
    | some d => let (ds, rest) := takeDigits cs; (d :: ds, rest)
    | none => ([], c :: cs)

/-- The exponent after the digits: none at the end of the text, else `e`, a sign and digits. -/
def exponent? : List Char → Option Int
  | [] => some 0
  | c :: cs =>
    if c == 'e' || c == 'E' then
      let (negative, body) := splitSign cs
      match takeDigits body with
      | ([], _) => none
      | (digits, []) => some (signed negative (ofDigits digits))
      | _ => none
    else none

/-- Digits with a decimal point and an exponent. -/
def decimal? (negative : Bool) (cs : List Char) : Option Binary64 :=
  let (whole, rest) := takeDigits cs
  let (fraction, tail) := match rest with
    | '.' :: more => takeDigits more
    | _ => ([], rest)
  if whole.isEmpty && fraction.isEmpty then none
  else (exponent? tail).map fun e =>
    Binary64.ofDecimal negative (ofDigits (whole ++ fraction)) (e - fraction.length)

/-- The letters of ASCII in their small form. -/
def asciiLower (cs : List Char) : String := String.ofList (cs.map Char.toLower)

/-- A number in ASCII, without white space or underscores: digits, or a word for infinity or
not-a-number, after a sign. -/
def plainFloat? (cs : List Char) : Option Binary64 :=
  let (negative, body) := splitSign cs
  if ["inf", "infinity"].contains (asciiLower body) then some (.infinity negative)
  else if asciiLower body == "nan" then some .nan
  else decimal? negative body

/-- Takes out underscores, each of which has to stand between two digits.  The flag says that the
character before is a digit. -/
def withoutUnderscores? : Bool → List Char → Option (List Char)
  | _, [] => some []
  | afterDigit, c :: cs =>
    if c == '_' then
      if afterDigit && (cs.head?.bind asciiDigit?).isSome then withoutUnderscores? false cs
      else none
    else (withoutUnderscores? (asciiDigit? c).isSome cs).map (c :: ·)

/-- A digit of any script as the ASCII digit of the same value. -/
def asAsciiDigit (c : Char) : Char :=
  match digitValue? c with
  | some d => Char.ofNat (48 + d)
  | none => c

/-- A floating point number read in the general way. -/
def float? (s : String) : Option Binary64 :=
  (withoutUnderscores? false ((trimChars isWhite s.toList).map asAsciiDigit)).bind plainFloat?

/-! ## 3. Numbers of form fields -/

/-- An integer as a machine writes it: no plus sign and no leading zero.  Too many digits are
noticed before anything behind them is. -/
def plainInteger (cs : List Char) : Except Fault Int :=
  let (negative, body) := match cs with
    | '-' :: rest => (true, rest)
    | _ => (false, cs)
  match takeDigits body with
  | ([], _) => .error .malformed
  | (first :: more, rest) =>
    let length := more.length + 1
    if first != 0 && maxDigits < length then .error (.tooLong length)
    else if rest.isEmpty && (first != 0 || more.isEmpty) then
      .ok (signed negative (ofDigits (first :: more)))
    else .error .malformed

/-- Skips zeros and underscores up to the first other digit or a minus sign, keeping the last
character before a decimal point or before the end. -/
def skipZeros : Char → List Char → Option (List Char)
  | last, [] => some [last]
  | last, c :: cs =>
    if c == '0' || c == '_' then skipZeros c cs
    else if c == '.' then some (last :: c :: cs)
    else if c == '-' || (asciiDigit? c).isSome then some (c :: cs)
    else none

/-- Leading zeros taken off; the text has to start with a digit. -/
def withoutLeadingZeros? : List Char → Option (List Char)
  | [] => none
  | c :: cs =>
    if c == '0' then skipZeros c cs
    else if (asciiDigit? c).isSome then some (c :: cs)
    else none

/-- The zeros behind a minus sign taken off, or those at the front. -/
def withoutPadding? : List Char → Option (List Char)
  | '-' :: cs => (withoutLeadingZeros? cs).map ('-' :: ·)
  | cs => withoutLeadingZeros? cs

/-- A fraction of nothing but zeros taken off. -/
def withoutZeroFraction (cs : List Char) : List Char :=
  match cs.dropWhile (· != '.') with
  | _ :: fraction =>
    if !fraction.isEmpty && fraction.all (· == '0') then cs.takeWhile (· != '.') else cs
  | [] => cs

/-- Whether two underscores stand side by side. -/
def hasDoubleUnderscore : List Char → Bool
  | a :: b :: rest => (a == '_' && b == '_') || hasDoubleUnderscore (b :: rest)
  | _ => false

/-- Underscores taken out, unless one stands at an end or beside another. -/
def stripUnderscores? (cs : List Char) : Option (List Char) :=
  if cs.head? == some '_' || cs.getLast? == some '_' || !cs.contains '_' || hasDoubleUnderscore cs
  then none
  else some (cs.filter (· != '_'))

/-- A plus sign taken off, unless a minus sign follows it. -/
def withoutPlus? : List Char → Option (List Char)
  | '+' :: '-' :: _ => none
  | '+' :: rest => some rest
  | cs => some cs

/-- The integer of a form field.  Only a text that is no plain integer is cleaned, and whatever is
wrong after that, it is malformed. -/
def laxInteger (cs : List Char) : Except Fault Int :=
  match plainInteger cs with
  | .error .malformed =>
    match (withoutPlus? (trimChars isWhite cs)).bind withoutPadding? with
    | none => .error .malformed
    | some body =>
      let body := withoutZeroFraction body
      match plainInteger ((stripUnderscores? body).getD body) with
      | .ok n => .ok n
      | .error _ => .error .malformed
  | answer => answer

/-- The floating point number of a form field. -/
def laxFloat? (cs : List Char) : Option Binary64 :=
  match plainFloat? (trimChars isWhite cs) with
  | some x => some x
  | none => (stripUnderscores? cs).bind plainFloat?

end RowMapper.Numeral
