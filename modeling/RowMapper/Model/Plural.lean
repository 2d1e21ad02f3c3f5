/-!
# Plural forms

The name of a table is the plural of the name of its class: `y` after a consonant becomes `ies`, a
hissing ending takes `es`, and anything else takes `s`.  A line feed at the end is not looked at,
but it stays in the word.
-/
namespace RowMapper.Model

/-- The vowels of the English rule. -/
def isVowel (c : Char) : Bool := ['a', 'e', 'i', 'o', 'u'].contains c

/-- The last letters first, without one line feed at the end. -/
def endingOf (word : List Char) : List Char :=
  match word.reverse with
  | '\n' :: rest => rest
  | letters => letters

/-- Whether a word, last letter first, ends in `y` after a character that is no vowel. -/
def endsInConsonantY : List Char → Bool
  | 'y' :: c :: _ => !isVowel c
  | _ => false

/-- Whether a word, last letter first, ends in a hiss. -/
def endsInHiss : List Char → Bool
  | 's' :: _ => true
  | 'x' :: _ => true
  | 'z' :: _ => true
  | 'h' :: 'c' :: _ => true
  | 'h' :: 's' :: _ => true
  | _ => false

/-- The plural of a word. -/
def pluralize (word : String) : String :=
  let ending := endingOf word.toList
  if endsInConsonantY ending then String.ofList (word.toList.dropLast) ++ "ies"
  else if endsInHiss ending then word ++ "es"
  else word ++ "s"

end RowMapper.Model
