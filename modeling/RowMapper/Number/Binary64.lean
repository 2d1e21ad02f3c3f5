/-!
# Binary floating point numbers of 64 bits

A finite number is a sign, a mantissa below 2^53 and a power of two from -1074 on; the mantissa is
at least 2^52 unless the power is the lowest.  All arithmetic is exact on natural numbers.

* `ofRatio`, `ofDecimal`: the nearest number, ties to the even mantissa.
* `shortest`: the fewest decimal digits that read back as the number, and of those the nearest.
* `text`: those digits, positional from 10^-4 up to 10^16 and with an exponent elsewhere.
-/
namespace RowMapper

/-- A floating point number of 64 bits; the payload of a not-a-number is not kept. -/
inductive Binary64 where
  | nan
  | infinity (negative : Bool)
  | finite (negative : Bool) (mantissa : Nat) (exponent : Int)
  deriving DecidableEq, Inhabited

namespace Binary64

/-! ## 1. Nearest numbers -/

/-- A power of two. -/
def twoTo (n : Nat) : Nat := Nat.pow 2 n

/-- A power of ten. -/
def tenTo (n : Nat) : Nat := Nat.pow 10 n


/-- The lowest power of two. -/
def minExponent : Int := -1074

/-- The zero of either sign. -/
def zero (negative : Bool) : Binary64 := .finite negative 0 minExponent

/-- The quotient `num / (den * 2^exponent)`, rounded down, and what is left, over its divisor. -/
def divideScaled (num den : Nat) (exponent : Int) : Nat × Nat × Nat :=
  let top := num * twoTo (-exponent).toNat
  let bottom := den * twoTo exponent.toNat
  (top / bottom, top % bottom, bottom)

/-- The power of two at which the quotient has 53 bits, but none below the lowest. -/
def exponentFor (num den : Nat) : Int :=
  let guess : Int := (Nat.log2 num : Int) - Nat.log2 den - 52
  let fitted := if (divideScaled num den guess).1 < twoTo 52 then guess - 1 else guess
  max fitted minExponent

/-- A mantissa that rounding has carried to 2^53 moves up one power; past the highest power the
number is infinite. -/
def normalize (negative : Bool) (mantissa : Nat) (exponent : Int) : Binary64 :=
  let (m, e) := if mantissa = twoTo 53 then (twoTo 52, exponent + 1) else (mantissa, exponent)
  if 971 < e then .infinity negative else .finite negative m e

/-- The number nearest to a ratio, ties to the even mantissa. -/
def ofRatio (negative : Bool) (num den : Nat) : Binary64 :=
  if num = 0 then zero negative
  else
    let e := exponentFor num den
    let (q, r, d) := divideScaled num den e
    let up := d < 2 * r || (d == 2 * r && q % 2 == 1)
    normalize negative (if up then q + 1 else q) e

/-- The number nearest to `digits * 10^exponent`. -/
def ofDecimal (negative : Bool) (digits : Nat) (exponent : Int) : Binary64 :=
  let magnitude : Int := (Nat.toDigits 10 digits).length + exponent
  if digits = 0 then zero negative
  else if 310 < magnitude then .infinity negative
  else if magnitude < -330 then zero negative
  else ofRatio negative (digits * tenTo exponent.toNat) (tenTo (-exponent).toNat)

/-- The number nearest to an integer; a magnitude beyond the largest has none. -/
def ofInt? (n : Int) : Option Binary64 :=
  match ofRatio (n < 0) n.natAbs 1 with
  | .infinity _ => none
  | x => some x

/-! ## 2. Integers among the numbers -/

/-- Whether the number is a zero of either sign. -/
def isZero : Binary64 → Bool
  | .finite _ m _ => m == 0
  | _ => false

/-- The integer part of a finite number, cut toward zero. -/
def truncate? : Binary64 → Option Int
  | .finite negative m e =>
    let magnitude : Int := ((m * twoTo e.toNat) / twoTo (-e).toNat : Nat)
    some (if negative then -magnitude else magnitude)
  | _ => none

/-- Whether a finite number has no fraction. -/
def isIntegral : Binary64 → Bool
  | .finite _ m e => m % twoTo (-e).toNat == 0
  | _ => false

/-- The integer that the number equals, if any. -/
def toInt? (x : Binary64) : Option Int :=
  if x.isIntegral then x.truncate? else none

/-- Numerical equality: the two zeros are equal, and a not-a-number equals nothing. -/
def equals : Binary64 → Binary64 → Bool
  | .nan, _ => false
  | x, y => x == y || (x.isZero && y.isZero)

/-! ## 3. Shortest decimal digits -/

/-- Compares `d * 10^p` with `x * 2^f`. -/
def compareDecimal (d : Nat) (p : Int) (x : Nat) (f : Int) : Ordering :=
  compare (d * tenTo p.toNat * twoTo (-f).toNat) (x * twoTo f.toNat * tenTo (-p).toNat)

/-- The power of ten of the first digit of a positive number. -/
def leadingPower (m : Nat) (e : Int) : Int :=
  let guess := Int.fdiv (((Nat.log2 m : Int) + e) * 30103) 100000
  ([guess + 1, guess].find? (fun k => compareDecimal 1 k m e != .gt)).getD (guess - 1)

/-- Whether `d * 10^p` reads back as the number: it lies between the points half way to the two
neighbours, which themselves read back only for an even mantissa. -/
def readsBack (m : Nat) (e : Int) (d : Nat) (p : Int) : Bool :=
  let low := 4 * m - (if m = twoTo 52 && minExponent < e then 1 else 2)
  let high := 4 * m + 2
  let fromLow := compareDecimal d p low (e - 2)
  let fromHigh := compareDecimal d p high (e - 2)
  if m % 2 == 0 then fromLow != .lt && fromHigh != .gt else fromLow == .gt && fromHigh == .lt

/-- The neighbour of the number on the grid of multiples of `10^p` that reads back; of two the
nearer, of two equally near the even one. -/
def onGrid? (m : Nat) (e : Int) (p : Int) : Option Nat :=
  let d := (m * twoTo e.toNat * tenTo (-p).toNat) / (twoTo (-e).toNat * tenTo p.toNat)
  match readsBack m e d p, readsBack m e (d + 1) p with
  | true, true =>
    match compareDecimal (2 * d + 1) p (2 * m) e with
    | .lt => some (d + 1)
    | .gt => some d
    | .eq => some (if d % 2 == 0 then d else d + 1)
  | true, false => some d
  | false, true => some (d + 1)
  | false, false => none

/-- Moves trailing zeros of the digits into the power of ten. -/
def dropZeros : Nat → Nat → Int → Nat × Int
  | 0, d, p => (d, p)
  | fuel + 1, d, p => if d % 10 == 0 then dropZeros fuel (d / 10) (p + 1) else (d, p)

/-- The shortest digits and their power of ten, for a positive number. -/
def shortest (m : Nat) (e : Int) : Nat × Int :=
  let lead := leadingPower m e
  let grids := (List.range 17).map (fun (n : Nat) => lead - n)
  match grids.findSome? (fun p => (onGrid? m e p).map (·, p)) with
  | some (d, p) => dropZeros 20 d p
  | none => (m, e)

/-! ## 4. Text -/

/-- An exponent with its sign and at least two digits. -/
def exponentText (n : Int) : String :=
  let magnitude := toString n.natAbs
  "e" ++ (if n < 0 then "-" else "+") ++ (if magnitude.length < 2 then "0" else "") ++ magnitude

/-- The digits of a number, `point` places before the decimal point. -/
def positional (digits : List Char) (point : Int) : List Char :=
  if point ≤ 0 then ['0', '.'] ++ List.replicate (-point).toNat '0' ++ digits
  else if digits.length ≤ point.toNat then
    digits ++ List.replicate (point.toNat - digits.length) '0' ++ ['.', '0']
  else digits.take point.toNat ++ '.' :: digits.drop point.toNat

/-- One digit before the point, the others behind it, and the exponent. -/
def scientific (digits : List Char) (point : Int) : List Char :=
  let mantissa := match digits with
    | first :: second :: rest => first :: '.' :: second :: rest
    | short => short
  mantissa ++ (exponentText (point - 1)).toList

/-- The text of a number without its sign. -/
def magnitudeText (m : Nat) (e : Int) : String :=
  if m = 0 then "0.0"
  else
    let (d, p) := shortest m e
    let digits := Nat.toDigits 10 d
    let point : Int := digits.length + p
    String.ofList
      (if -4 < point && point ≤ 16 then positional digits point else scientific digits point)

/-- The shortest text that reads back as the number. -/
def text : Binary64 → String
  | .nan => "nan"
  | .infinity negative => if negative then "-inf" else "inf"
  | .finite negative m e => (if negative then "-" else "") ++ magnitudeText m e

end Binary64
end RowMapper
