import RowMapper.Rejection
import RowMapper.Text.Blank

/-!
# Sort and group clauses

The text after ORDER BY or GROUP BY goes into a statement as it is, so it is checked to be a list
of names with commas between them, each with an optional direction.  The check reads the text once
from left to right, in the states of `ClauseState`.
-/
namespace RowMapper.Sql

/-- The letters that a match without regard to case takes for letters of ASCII: besides these the
dotted and the dotless i, the long s and the Kelvin sign. -/
def isLooseLetter (c : Char) : Bool :=
  c.isAlpha || [0x130, 0x131, 0x17f, 0x212a].contains c.toNat

/-- The first character of a name. -/
def isNameStart (c : Char) : Bool := isLooseLetter c || c == '_'

/-- A later character of a name. -/
def isNameChar (c : Char) : Bool := isLooseLetter c || c.isDigit || c == '_' || c == '.'

/-- Whether a character is a given small letter without regard to case. -/
def sameLetter (expected c : Char) : Bool :=
  c.toLower == expected || (expected == 's' && c.toNat == 0x17f)

/-- Where the reader is: before a name, inside one, on the blanks after it, inside a direction of
which letters are missing, or behind the direction. -/
inductive ClauseState where
  | before
  | name
  | gap
  | direction (missing : List Char)
  | behind

/-- The state after the blanks or the comma that end a name or a direction. -/
def ClauseState.afterEnd? (c : Char) (onBlank : ClauseState) : Option ClauseState :=
  if c == ',' then some .before else if Text.isBlank c then some onBlank else none

/-- Reads one character. -/
def ClauseState.step (s : ClauseState) (c : Char) : Option ClauseState :=
  match s with
  | .before => if Text.isBlank c then some .before else if isNameStart c then some .name else none
  | .name => if isNameChar c then some .name else afterEnd? c .gap
  | .gap =>
    if sameLetter 'a' c then some (.direction ['s', 'c'])
    else if sameLetter 'd' c then some (.direction ['e', 's', 'c'])
    else afterEnd? c .gap
  | .direction (expected :: missing) =>
    if sameLetter expected c then some (.direction missing) else none
  | .direction [] => afterEnd? c .behind
  | .behind => afterEnd? c .behind

/-- Whether a clause may end here. -/
def ClauseState.accepts : ClauseState → Bool
  | .before => false
  | .direction missing => missing.isEmpty
  | _ => true

/-- Whether a text is a list of names with optional directions. -/
def isSafeClause (clause : String) : Bool :=
  (clause.toList.foldlM ClauseState.step .before).any ClauseState.accepts

/-- The clause without blanks at its ends, if it is safe. -/
def checkClause (clauseKind clause : String) : Except Rejection String :=
  if isSafeClause clause then .ok (Text.trim clause) else .error (.unsafeClause clauseKind clause)

end RowMapper.Sql
