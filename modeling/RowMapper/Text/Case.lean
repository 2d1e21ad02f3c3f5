import RowMapper.Text.CaseTable

/-!
# Small and capital forms of a text

The full mappings: a character may become several, and a capital sigma becomes the final form at
the end of a word.
-/
namespace RowMapper.Text

/-- The capital form of one character. -/
def upperChar (c : Char) : List Char :=
  match upperSpecial.lookup c.toNat with
  | some codes => codes.map Char.ofNat
  | none =>
    match CaseRun.shiftOf? upperRuns c.toNat with
    | some shift => [Char.ofNat (c.toNat + shift).toNat]
    | none => [c]

/-- The small form of one character away from the sigma rule. -/
def lowerChar (c : Char) : List Char :=
  match lowerSpecial.lookup c.toNat with
  | some codes => codes.map Char.ofNat
  | none =>
    match CaseRun.shiftOf? lowerRuns c.toNat with
    | some shift => [Char.ofNat (c.toNat + shift).toNat]
    | none => [c]

/-- Whether the nearest character that counts for the sigma rule has a case. -/
def facesCased (side : List Char) : Bool :=
  match side.dropWhile caseIgnorable.contains with
  | [] => false
  | c :: _ => casedLetters.contains c

/-- A capital sigma ends a word when a cased letter comes before it and none after it. -/
def sigmaForm (before after : List Char) : Char :=
  if facesCased before && !facesCased after then Char.ofNat 0x3c2 else Char.ofNat 0x3c3

/-- The small form of `rest`, read after the characters `before` (nearest first). -/
def lowerFrom (before : List Char) : List Char → List Char
  | [] => []
  | c :: rest =>
    (if c.toNat = 0x3a3 then [sigmaForm before rest] else lowerChar c) ++
      lowerFrom (c :: before) rest

/-- The text with every letter in its small form. -/
def lower (s : String) : String := String.ofList (lowerFrom [] s.toList)

/-- The text with every letter in its capital form. -/
def upper (s : String) : String := String.ofList (s.toList.flatMap upperChar)

end RowMapper.Text
