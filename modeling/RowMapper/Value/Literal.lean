import RowMapper.Text.Quoted
import RowMapper.Value.Basic

/-!
# Printed forms of values

`literal` prints a value as it would be written in a program, and `display` prints a text as it
is.  How an entity, a column or an association is printed depends on the world, so both take a
printer for these.

A collection that is met again while it is being printed is shown by dots between its brackets;
`opened` holds the numbers of the collections around.  Nothing else stops a circle, so a value that
leads back to itself without a collection cannot be printed.
-/
namespace RowMapper

/-- Why a value cannot be printed: an entity in it has no key, or the printing would not end. -/
inductive Unprintable where
  | keyless
  | endless
  deriving DecidableEq, Inhabited

/-- A printed form, or why there is none. -/
abbrev Printed := Except Unprintable String

/-- A printer of entities, columns and associations inside open collections. -/
abbrev ReferencePrinter := List Nat → Value → Printed

/-- A class as it is printed, with the module it belongs to. -/
def ModelRef.text (ref : ModelRef) : String := "<class '" ++ ref.home ++ "." ++ ref.name ++ "'>"

/-- The printer that knows no more of a reference than its type. -/
def ReferencePrinter.blind : ReferencePrinter := fun _ v => .ok ("<" ++ v.kind ++ ">")

namespace Value

variable (reference : ReferencePrinter)

/-- Whether the value of a place is being printed. -/
def isOpen (opened : List Nat) (place : Place) : Bool := place.any opened.contains

/-- The open collections inside a collection. -/
def opening (opened : List Nat) (place : Place) : List Nat := place.toList ++ opened

/-- Puts printed elements between brackets. -/
def enclosed (left right : String) (parts : List String) : String :=
  left ++ ", ".intercalate parts ++ right

/-- The text of a value whose literal is known: a text is not quoted. -/
def unquoted (v : Value) (printed : String) : String := v.text?.getD printed

mutual

/-- The value as it would be written in a program. -/
def literalIn (opened : List Nat) : Value → Printed
  | .null => .ok "None"
  | .bool b => .ok (if b then "True" else "False")
  | .intAt n _ => .ok (toString n)
  | .floatAt x _ => .ok x.text
  | .strAt s _ => .ok (Text.quoted s)
  | .bytesAt b _ => .ok (Text.quotedBytes b)
  | .listAt items place =>
    if isOpen opened place then .ok "[...]"
    else (literals (opening opened place) items).map (enclosed "[" "]")
  | .tupleAt items place =>
    if isOpen opened place then .ok "(...)"
    else
      let right := if items.length == 1 then ",)" else ")"
      (literals (opening opened place) items).map (enclosed "(" right)
  | .mappingAt entries place =>
    if isOpen opened place then .ok "\x7b...\x7d"
    else (entryLiterals (opening opened place) entries).map (enclosed "\x7b" "\x7d")
  | .outcomeAt insertId affectedRows _ => do
    let key ← literalIn opened insertId
    let count ← literalIn opened affectedRows
    return "<QueryResult insert_id=" ++ unquoted insertId key ++ " affected_rows=" ++
      unquoted affectedRows count ++ ">"
  | .filterAt (.comparison subject operator operand) _ => do
    let name ← literalIn opened subject
    let word ← literalIn opened operator
    let compared ← literalIn opened operand
    return "<ComparisonFilter " ++ unquoted subject name ++ " " ++ unquoted operator word ++ " " ++
      compared ++ ">"
  | .filterAt f _ => .ok ("<" ++ f.kind ++ ">")
  | .objectAt ref _ => .ok ("<" ++ ref.home ++ "." ++ ref.name ++ " object>")
  | .model ref => .ok ref.text
  | .entity ref => reference opened (.entity ref)
  | .column ref => reference opened (.column ref)
  | .association ref => reference opened (.association ref)
  | .other _ text => .ok text
  | .shared _ => .ok "<object>"

/-- The printed elements of a collection. -/
def literals (opened : List Nat) : List Value → Except Unprintable (List String)
  | [] => .ok []
  | v :: rest => do
    let first ← literalIn opened v
    let others ← literals opened rest
    return first :: others

/-- The printed entries of a mapping. -/
def entryLiterals (opened : List Nat) : List (Value × Value) → Except Unprintable (List String)
  | [] => .ok []
  | (k, v) :: rest => do
    let key ← literalIn opened k
    let value ← literalIn opened v
    let others ← entryLiterals opened rest
    return (key ++ ": " ++ value) :: others

end

/-- The value as it stands inside a sentence: a text is not quoted. -/
def displayIn (opened : List Nat) (v : Value) : Printed :=
  match v.text? with
  | some s => .ok s
  | none => literalIn reference opened v

/-- The value as it stands inside a sentence, when its literal can be printed by other means. -/
def displayBy (literal : Value → Printed) (v : Value) : Printed :=
  match v.text? with
  | some s => .ok s
  | none => literal v

/-- The literal of a value in which references are only named by their type. -/
def plainLiteral (v : Value) : Printed := literalIn .blind [] v

end Value
end RowMapper
