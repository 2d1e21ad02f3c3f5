import RowMapper.Filter.Basic
import RowMapper.Number.Binary64

/-!
# Values

What a caller passes in, what a database row holds and what an operation answers.  Where-clauses,
find options and properties arrive as such values, with their shape still unchecked, so the type
is a dynamic one.

A mapping keeps its entries in the order of first insertion.  Its keys are compared by value:
a truth value counts as the number zero or one, and equal numbers of different types are one key.

Several places can hold the very same list or mapping, which then lies on a shelf; see `Shelf`.  A
value that was taken from the shelf remembers its number there.  The number says whether two values
are the very same; what a value means never depends on it.
-/
namespace RowMapper

/-- A class: its number in the registry, its name, and the name of the module it belongs to. -/
structure ModelRef where
  id : Nat
  name : String
  home : String
  deriving DecidableEq, Inhabited

/-- An entity: its number in the store and the name of its class. -/
structure EntityRef where
  id : Nat
  model : String
  deriving DecidableEq, Inhabited

/-- A column or an association of a class, as a thing that can be passed around: its number in the
registry, and the word with which it was declared. -/
structure DeclaredRef where
  index : Nat
  word : String
  deriving DecidableEq, Inhabited

/-- The number of a value on the shelf, if it lies there. -/
abbrev Place := Option Nat

/-- A value of any of the types in use.  `outcomeAt` is what a statement without rows answers;
`objectAt` is an object of a class that is no model, with nothing set on it; `other` is anything
else, of which only the type and the printed form are known; `shared` stands for the value that lies
on the shelf under a number. -/
inductive Value where
  | null
  | bool (b : Bool)
  | intAt (n : Int) (place : Place)
  | floatAt (x : Binary64) (place : Place)
  | strAt (s : String) (place : Place)
  | bytesAt (bytes : List UInt8) (place : Place)
  | listAt (items : List Value) (place : Place)
  | tupleAt (items : List Value) (place : Place)
  | mappingAt (entries : List (Value × Value)) (place : Place)
  | outcomeAt (insertId affectedRows : Value) (place : Place)
  | filterAt (f : Filter Value) (place : Place)
  | objectAt (ref : ModelRef) (place : Place)
  | model (ref : ModelRef)
  | entity (ref : EntityRef)
  | column (ref : DeclaredRef)
  | association (ref : DeclaredRef)
  | other (kind text : String)
  | shared (number : Nat)
  deriving Inhabited

namespace Value

/-! ## 1. New values -/

/-- An integer that lies nowhere yet. -/
abbrev int (n : Int) : Value := .intAt n none

/-- A floating point number that lies nowhere yet. -/
abbrev float (x : Binary64) : Value := .floatAt x none

/-- A text that lies nowhere yet. -/
abbrev str (s : String) : Value := .strAt s none

/-- A byte string that lies nowhere yet. -/
abbrev bytes (b : List UInt8) : Value := .bytesAt b none

/-- A list that lies nowhere yet. -/
abbrev list (items : List Value) : Value := .listAt items none

/-- A tuple that lies nowhere yet. -/
abbrev tuple (items : List Value) : Value := .tupleAt items none

/-- A mapping that lies nowhere yet. -/
abbrev mapping (entries : List (Value × Value)) : Value := .mappingAt entries none

/-- The answer to a statement without rows, that lies nowhere yet. -/
abbrev outcome (insertId affectedRows : Value) : Value := .outcomeAt insertId affectedRows none

/-- A filter that lies nowhere yet. -/
abbrev filter (f : Filter Value) : Value := .filterAt f none

/-- An object of a class that is no model, that lies nowhere yet. -/
abbrev object (ref : ModelRef) : Value := .objectAt ref none

/-! ## 2. Truth and types -/

/-- Whether a value counts as true: zeros, empty texts and empty collections do not. -/
def truthy : Value → Bool
  | .null => false
  | .bool b => b
  | .intAt n _ => n != 0
  | .floatAt x _ => !x.isZero
  | .strAt s _ => !s.isEmpty
  | .bytesAt b _ => !b.isEmpty
  | .listAt items _ => !items.isEmpty
  | .tupleAt items _ => !items.isEmpty
  | .mappingAt entries _ => !entries.isEmpty
  | _ => true

/-- The name of the type of a value. -/
def kind : Value → String
  | .null => "NoneType"
  | .bool _ => "bool"
  | .intAt _ _ => "int"
  | .floatAt _ _ => "float"
  | .strAt _ _ => "str"
  | .bytesAt _ _ => "bytes"
  | .listAt _ _ => "list"
  | .tupleAt _ _ => "tuple"
  | .mappingAt _ _ => "dict"
  | .outcomeAt _ _ _ => "QueryResult"
  | .filterAt f _ => f.kind
  | .objectAt ref _ => ref.name
  | .model _ => "type"
  | .entity ref => ref.model
  | .column ref => ref.word
  | .association ref => ref.word
  | .other kind _ => kind
  | .shared _ => "object"

/-- Whether the value is a mapping. -/
def isMapping : Value → Bool
  | .mappingAt _ _ => true
  | _ => false

/-- The elements of a list or a tuple. -/
def sequence? : Value → Option (List Value)
  | .listAt items _ => some items
  | .tupleAt items _ => some items
  | _ => none

/-- The text of a value that is one. -/
def text? : Value → Option String
  | .strAt s _ => some s
  | _ => none

/-- Whether the value is null. -/
def isNull : Value → Bool
  | .null => true
  | _ => false

/-- Whether the value is a filter that can be combined with others. -/
def isExpression : Value → Bool
  | .filterAt f _ => f.isExpression
  | _ => false

/-! ## 3. Identity -/

/-- The number on the shelf of a value that remembers one. -/
def place : Value → Place
  | .intAt _ place => place
  | .floatAt _ place => place
  | .strAt _ place => place
  | .bytesAt _ place => place
  | .listAt _ place => place
  | .tupleAt _ place => place
  | .mappingAt _ place => place
  | .outcomeAt _ _ place => place
  | .filterAt _ place => place
  | .objectAt _ place => place
  | .shared number => some number
  | _ => none

/-- The value as one that lies on the shelf under a number. -/
def lyingAt (number : Nat) : Value → Value
  | .intAt n _ => .intAt n (some number)
  | .floatAt x _ => .floatAt x (some number)
  | .strAt s _ => .strAt s (some number)
  | .bytesAt b _ => .bytesAt b (some number)
  | .listAt items _ => .listAt items (some number)
  | .tupleAt items _ => .tupleAt items (some number)
  | .mappingAt entries _ => .mappingAt entries (some number)
  | .outcomeAt insertId affectedRows _ => .outcomeAt insertId affectedRows (some number)
  | .filterAt f _ => .filterAt f (some number)
  | .objectAt ref _ => .objectAt ref (some number)
  | v => v

/-- Whether two values lie on the shelf under one number. -/
def sharePlace (a b : Value) : Bool :=
  match a.place, b.place with
  | some m, some n => m == n
  | _, _ => false

/-! ## 4. Keys of mappings -/

mutual

/-- Whether a value can be a key: lists, mappings and bare columns cannot, nor a tuple that holds
one. -/
def hashable : Value → Bool
  | .listAt _ _ => false
  | .mappingAt _ _ => false
  | .tupleAt items _ => allHashable items
  | .filterAt f _ => f.isExpression
  | _ => true

/-- Whether all values of a tuple can be keys. -/
def allHashable : List Value → Bool
  | [] => true
  | v :: rest => hashable v && allHashable rest

end

/-- The integer that a value equals as a number. -/
def asInt? : Value → Option Int
  | .bool b => some (if b then 1 else 0)
  | .intAt n _ => some n
  | .floatAt x _ => x.toInt?
  | _ => none

mutual

/-- Whether two values are one key: if they are the very same, or equal.  Two answers of the
database, filters or objects of no model are never equal. -/
def sameKey (a b : Value) : Bool :=
  sharePlace a b ||
  match a, b with
  | .null, .null => true
  | .strAt a _, .strAt b _ => a == b
  | .bytesAt a _, .bytesAt b _ => a == b
  | .tupleAt a _, .tupleAt b _ => sameKeys a b
  | .model a, .model b => a.id == b.id
  | .entity a, .entity b => a.id == b.id
  | .column a, .column b => a.index == b.index
  | .association a, .association b => a.index == b.index
  | .other kind text, .other otherKind otherText => kind == otherKind && text == otherText
  | .floatAt a _, .floatAt b _ => a.equals b
  | a, b =>
    match a.asInt?, b.asInt? with
    | some m, some n => m == n
    | _, _ => false

/-- Whether two tuples are one key, element by element. -/
def sameKeys : List Value → List Value → Bool
  | [], [] => true
  | a :: as, b :: bs => sameKey a b && sameKeys as bs
  | _, _ => false

end

end Value

/-- The entries of a mapping. -/
abbrev Entries := List (Value × Value)

namespace Entries

/-- What stands under a key. -/
def get? {α : Type} (entries : List (Value × α)) (key : Value) : Option α :=
  (entries.find? (fun entry => entry.1.sameKey key)).map (·.2)

/-- Whether something stands under a key. -/
def has {α : Type} (entries : List (Value × α)) (key : Value) : Bool :=
  entries.any fun entry => entry.1.sameKey key

/-- Writes something under a key: a key that is present keeps its place and its spelling. -/
def insert {α : Type} : List (Value × α) → Value → α → List (Value × α)
  | [], key, value => [(key, value)]
  | (known, old) :: rest, key, value =>
    if known.sameKey key then (known, value) :: rest else (known, old) :: insert rest key value

/-- Writes entries one after another. -/
def update (entries more : Entries) : Entries :=
  more.foldl (fun acc entry => insert acc entry.1 entry.2) entries

/-- The entries with texts as keys, or nothing if another key is among them. -/
def named? : Entries → Option (List (String × Value))
  | [] => some []
  | (key, value) :: rest => do
    let name ← key.text?
    let others ← named? rest
    return (name, value) :: others

/-- Entries of named values. -/
def ofNamed (named : List (String × Value)) : Entries :=
  named.map (fun entry => (.str entry.1, entry.2))

end Entries
end RowMapper
