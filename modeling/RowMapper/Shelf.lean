import RowMapper.Value.Basic

/-!
# The shelf

Two places can hold the very same value, or two values that are only equal.  To tell these apart, a
value lies on a shelf under a number, and the places hold the number.  So what is appended to a list
in one place is seen in all of them.  The small values that exist only once stay where they are.

Values are never taken off a shelf, so a number stays good.  A value lies behind the values that it
holds; only entities are appended to it later.  Hence its parts can be looked up step by step in no
more steps than there are values on the shelf.

A value that is taken from the shelf as a whole remembers its number, and so do its parts.  Put
back, it is the same value again.
-/
namespace RowMapper

/-- The values on a shelf, by number. -/
abbrev Shelf := List Value

namespace Value

mutual

/-- The value with something in place of every number of a shelf. -/
def replaceShared (contents : Nat → Value) : Value → Value
  | .shared number => contents number
  | .listAt items place => .listAt (replaceSharedAll contents items) place
  | .tupleAt items place => .tupleAt (replaceSharedAll contents items) place
  | .mappingAt entries place => .mappingAt (replaceSharedEntries contents entries) place
  | .outcomeAt insertId affectedRows place =>
    .outcomeAt (replaceShared contents insertId) (replaceShared contents affectedRows) place
  | .filterAt (.column name) place => .filterAt (.column (replaceShared contents name)) place
  | .filterAt (.comparison subject operator operand) place =>
    .filterAt (.comparison (replaceShared contents subject) (replaceShared contents operator)
      (replaceShared contents operand)) place
  | .filterAt (.negation inner) place => .filterAt (.negation (replaceShared contents inner)) place
  | .filterAt (.combined logic parts) place =>
    .filterAt (.combined logic (replaceShared contents parts)) place
  | v => v

/-- The values with something in place of every number of a shelf. -/
def replaceSharedAll (contents : Nat → Value) : List Value → List Value
  | [] => []
  | v :: rest => replaceShared contents v :: replaceSharedAll contents rest

/-- The entries with something in place of every number of a shelf. -/
def replaceSharedEntries (contents : Nat → Value) : List (Value × Value) → List (Value × Value)
  | [] => []
  | (k, v) :: rest =>
    (replaceShared contents k, replaceShared contents v) :: replaceSharedEntries contents rest

end

end Value

namespace Shelf

/-! ## 1. Looking up -/

/-- The value of a number; one under which nothing lies stands for itself. -/
def valueAt (s : Shelf) (number : Nat) : Value := s[number]?.getD (.shared number)

/-- A value looked up on the shelf; its parts may still be numbers. -/
def look (s : Shelf) : Value → Value
  | .shared number => s.valueAt number
  | v => v

/-- A value with its parts looked up, at most `depth` steps inwards. -/
def expandWithin (s : Shelf) : Nat → Value → Value
  | 0, v => v
  | depth + 1, v => v.replaceShared fun number =>
    (s.expandWithin depth (s.valueAt number)).lyingAt number

/-- A value with all its parts looked up. -/
def expand (s : Shelf) (v : Value) : Value := s.expandWithin (s.length + 1) v

/-! ## 2. Putting -/

/-- Whether there is only one value of the kind: null and the truth values, the integers from -5 to
256, texts of at most one character of the first 256, byte strings of at most one byte, and the
empty tuple; what has a number of its own elsewhere, such as an entity, is told apart by that. -/
def isUnique : Value → Bool
  | .intAt n _ => -5 ≤ n && n ≤ 256
  | .floatAt _ _ => false
  | .strAt s _ =>
    match s.toList with
    | [] => true
    | [c] => c.toNat < 256
    | _ => false
  | .bytesAt b _ => b.length ≤ 1
  | .tupleAt items _ => items.isEmpty
  | .listAt _ _ => false
  | .mappingAt _ _ => false
  | .outcomeAt _ _ _ => false
  | .filterAt _ _ => false
  | .objectAt _ _ => false
  | _ => true

/-- Puts a value on the shelf, unless it is unique, and answers what its places hold. -/
def put (s : Shelf) (v : Value) : Value × Shelf :=
  if isUnique v then (v, s) else (.shared s.length, s ++ [v])

/-- Puts a key on the shelf.  Keys do not change, so that a mapping can hold the key itself, which
remembers its number. -/
def putKey (s : Shelf) (key : Value) : Value × Shelf :=
  if isUnique key || key.place.isSome then (key, s) else (key.lyingAt s.length, s ++ [key])

mutual

/-- Puts a value on the shelf, its parts first; a value that was taken from there goes back to its
number. -/
def store : Value → Shelf → Value × Shelf
  | .listAt items none, s =>
    let (items, s) := storeAll items s
    put s (.list items)
  | .tupleAt items none, s =>
    let (items, s) := storeAll items s
    put s (.tuple items)
  | .mappingAt entries none, s =>
    let (entries, s) := storeEntries entries s
    put s (.mapping entries)
  | .outcomeAt insertId affectedRows none, s =>
    let (insertId, s) := store insertId s
    let (affectedRows, s) := store affectedRows s
    put s (.outcome insertId affectedRows)
  | .filterAt (.column name) none, s =>
    let (name, s) := store name s
    put s (.filter (.column name))
  | .filterAt (.comparison subject operator operand) none, s =>
    let (subject, s) := store subject s
    let (operator, s) := store operator s
    let (operand, s) := store operand s
    put s (.filter (.comparison subject operator operand))
  | .filterAt (.negation inner) none, s =>
    let (inner, s) := store inner s
    put s (.filter (.negation inner))
  | .filterAt (.combined logic parts) none, s =>
    let (parts, s) := store parts s
    put s (.filter (.combined logic parts))
  | v, s =>
    match v.place with
    | some number => (.shared number, s)
    | none => put s v

/-- Puts values on the shelf one after another. -/
def storeAll : List Value → Shelf → List Value × Shelf
  | [], s => ([], s)
  | v :: rest, s =>
    let (first, s) := store v s
    let (others, s) := storeAll rest s
    (first :: others, s)

/-- Puts the keys and the values of entries on the shelf. -/
def storeEntries : List (Value × Value) → Shelf → List (Value × Value) × Shelf
  | [], s => ([], s)
  | (key, v) :: rest, s =>
    let (key, s) := putKey s key
    let (first, s) := store v s
    let (others, s) := storeEntries rest s
    ((key, first) :: others, s)

end

/-- Appends to the list of a number. -/
def append (s : Shelf) (number : Nat) (v : Value) : Shelf :=
  match s.valueAt number with
  | .listAt items place => s.set number (.listAt (items ++ [v]) place)
  | _ => s

end Shelf
end RowMapper
