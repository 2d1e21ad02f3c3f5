import RowMapper.Entity.Persistence
import RowMapper.Finder.Options
import RowMapper.Where.Compile

/-!
# Finders

Reading rows of a model as entities, and finding a row to change or to delete it.  The lenient
finders answer null where no row matches; the strict ones fail.
-/
namespace RowMapper.World

open Model (Mapper)
open Where (Role roleOf)

/-! ## 1. Selecting -/

/-- The rows of an answer; a statement that yields none cannot be read. -/
def rowsOf : Answer → Except Fault (List Row)
  | .rows rows => .ok rows
  | .done _ _ => .error .wrongType

/-- The selection that options ask for, with a page of its own. -/
def selection (m : Mapper) (o : FindOptions) (limit offset : Option Int) :
    Except Fault Sql.Fragment := do
  let filter ← orFault (Where.compile (o.valueOf .filter))
  Sql.Select.statement
    { table := m.tableName, columns := o.valueOf .attributes, filter := some filter,
      group := o.valueOf .group, order := o.valueOf .order,
      limit := limit.elim .null .int, offset := offset.elim .null .int }

/-- Runs a selection and makes the entities of its rows. -/
def select (session : String) (model : Nat) (excluded : List String) (statement : Sql.Fragment) :
    Action World (List EntityRef) := do
  let rows ← Action.ofExcept (rowsOf (← query statement))
  rows.mapM (hydrate model session excluded)

/-- Every row of the table. -/
def fetch (session : String) (model : Nat) : Action World (List EntityRef) := do
  let mapper ← reading (·.mapper model)
  let statement ← Action.ofExcept (Sql.Select.statement { table := mapper.tableName })
  select session model [] statement

/-- The rows that options ask for. -/
def findAll (session : String) (model : Nat) (o : FindOptions) : Action World (List EntityRef) := do
  let mapper ← reading (·.mapper model)
  let statement ← Action.ofExcept (selection mapper o o.limit o.rowOffset)
  select session model o.exclude statement

/-- The first row that a filter matches; the filter has to say something. -/
def findOne (session : String) (model : Nat) (o : FindOptions) :
    Action World (Option EntityRef) := do
  let mapper ← reading (·.mapper model)
  if o.filter.isEmpty then throw (.rejected (.emptyWhere ((← get).modelName model)))
  let statement ← Action.ofExcept (selection mapper o (some 1) none)
  return (← select session model o.exclude statement).head?

/-- The options that ask for one key. -/
def keyOptions (m : Mapper) (key : Value) : Except Fault FindOptions :=
  FindOptions.parse .nothing [("where", .mapping [(.str m.key, key)])]

/-- The row with a key. -/
def findById (session : String) (model : Nat) (key : Value) :
    Action World (Option EntityRef) := do
  let mapper ← reading (·.mapper model)
  if key.isNull then throw (.rejected (.missingId ((← get).modelName model)))
  findOne session model (← Action.ofExcept (keyOptions mapper key))

/-! ## 2. Finding to write -/

/-- Options that load the key, so that the row found can be written back. -/
def withKey (m : Mapper) (o : FindOptions) : FindOptions :=
  { o with
    exclude := o.exclude.filter (· ≠ m.key)
    attributes := o.attributes.map fun names =>
      if names.contains m.key then names else m.key :: names }

/-- The one row that options ask for. -/
def findStrictly (session : String) (model : Nat) (o : FindOptions) : Action World EntityRef := do
  let mapper ← reading (·.mapper model)
  match ← findOne session model (withKey mapper o) with
  | some ref => return ref
  | none =>
    throw (.missing (.byWhere ((← get).modelName model) (o.valueOf .filter)))

/-- Finds a row and deletes it. -/
def findOneAndDelete (session : String) (model : Nat) (o : FindOptions) : Action World Bool := do
  delete (← findStrictly session model o)

/-- Finds a row and changes it. -/
def findOneAndUpdate (session : String) (model : Nat) (o : FindOptions) (data : Value) :
    Action World EntityRef := do
  let ref ← findStrictly session model o
  setProperties ref data
  let _ ← update ref
  return ref

/-- Deletes the row with a key. -/
def findByIdAndDelete (session : String) (model : Nat) (key : Value) : Action World Bool := do
  let mapper ← reading (·.mapper model)
  match ← findById session model key with
  | some ref => delete ref
  | none => throw (.missing (.byId ((← get).modelName model) mapper.key key))

/-- Changes the row with a key, if there is one. -/
def findByIdAndUpdate (session : String) (model : Nat) (key data : Value) :
    Action World (Option EntityRef) := do
  match ← findById session model key with
  | none => return none
  | some ref =>
    setProperties ref data
    let _ ← update ref
    return some ref

/-! ## 3. Finding or creating -/

mutual

/-- Writes the values that the entries of a filter pin down. -/
def pinEntries : List (Value × Value) → Entries → Entries
  | [], data => data
  | (key, value) :: rest, data => pinEntries rest (pinEntry (roleOf key) key value data)

/-- Writes the values that one entry pins down: a plain value or the operand of `eq`, also inside
`and`. -/
def pinEntry (role : Role) (key : Value) : Value → Entries → Entries
  | .listAt items place, data =>
    match role with
    | .join .all => pinItems items data
    | .column => Entries.insert data key (.listAt items place)
    | _ => data
  | .tupleAt items place, data =>
    match role with
    | .join .all => pinItems items data
    | .column => Entries.insert data key (.tupleAt items place)
    | _ => data
  | .mappingAt operators _, data =>
    match role, Entries.get? operators (.str "eq") with
    | .column, some operand => Entries.insert data key operand
    | _, _ => data
  | value, data =>
    match role with
    | .column => Entries.insert data key value
    | _ => data

/-- Writes the values that the entries of a group pin down. -/
def pinItems : List Value → Entries → Entries
  | [], data => data
  | item :: rest, data => pinItems rest (pinItem item data)

/-- Writes the values that one entry of a group pins down. -/
def pinItem : Value → Entries → Entries
  | .mappingAt entries _, data => pinEntries entries data
  | _, data => data

end

/-- The pairs of a list of pairs. -/
def pairs (index : Nat) : List Value → Except Fault Entries
  | [] => .ok []
  | item :: rest => do
    match ← item.elements with
    | [key, value] =>
      if key.hashable then return (key, value) :: (← pairs (index + 1) rest) else throw .wrongType
    | parts => throw (.badValue (.notAPair index parts.length))

/-- The entries of defaults, given as a mapping or as pairs; a value that counts as false has
none. -/
def defaultEntries (w : World) (defaults : Value) : Except Fault Entries :=
  let found := w.look defaults
  if found.truthy then
    match found with
    | .mappingAt entries _ => .ok entries
    | _ => do pairs 0 (← (w.expand defaults).elements)
  else .ok []

/-- The attributes of the entity that is made when no row matches. -/
def newProperties (w : World) (o : FindOptions) (defaults : Value) :
    Except Fault (Dictionary Value) := do
  let pinned := pinEntries (Entries.ofNamed o.filter) []
  match (Entries.update pinned (← defaultEntries w defaults)).named? with
  | some properties => .ok properties
  | none => .error .wrongType

/-- Finds a row, or inserts one; answers whether it was made. -/
def findOrCreate (session : String) (model : Nat) (o : FindOptions) (defaults : Value) :
    Action World (EntityRef × Bool) := do
  match ← findOne session model o with
  | some ref => return (ref, false)
  | none =>
    let properties ← reading (newProperties · o defaults)
    let ref ← create session model properties
    debug "mappify.query" fun w =>
      (w.literal (.entity ref)).map ("find_or_create created " ++ ·)
    return (ref, true)

end RowMapper.World
