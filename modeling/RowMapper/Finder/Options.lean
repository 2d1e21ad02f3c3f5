import RowMapper.Dictionary
import RowMapper.Field
import RowMapper.Filter.Expression

/-!
# Find options

What a finder is asked for: a filter, the columns to load or to leave out, a page, and the sort and
group clauses.  Options are given as a mapping, by name, or as options checked before, and by name
on top of these.  All fields are checked and all problems are reported, in the order of the fields;
names that are no fields come after them, in the order given.

`limit` is the size of a page and `offset` its number, counted from one: both or neither.
-/
namespace RowMapper

/-- The names of the options, in the order in which they are checked. -/
inductive OptionName where
  | filter | attributes | exclude | limit | offset | order | group
  deriving DecidableEq, Inhabited

namespace OptionName

/-- The name of an option as it is written. -/
def text : OptionName → String
  | .filter => "where"
  | .attributes => "attributes"
  | .exclude => "exclude"
  | .limit => "limit"
  | .offset => "offset"
  | .order => "order"
  | .group => "group"

/-- All names, in the order in which they are checked. -/
def all : List OptionName := [.filter, .attributes, .exclude, .limit, .offset, .order, .group]

end OptionName

/-- Options that have been checked. -/
structure FindOptions where
  filter : List (String × Value) := []
  attributes : Option (List String) := none
  exclude : List String := []
  limit : Option Int := none
  offset : Option Int := none
  order : Option String := none
  group : Option String := none
  /-- The options that the caller gave. -/
  given : List OptionName := []
  deriving Inhabited

/-- Where options come from. -/
inductive OptionSource where
  /-- Nothing, or a value that counts as false. -/
  | nothing
  | entries (entries : Entries)
  /-- A value that is neither a mapping nor checked options. -/
  | unusable
  | checked (options : FindOptions)

namespace FindOptions

/-- The number of rows before the page. -/
def rowOffset (o : FindOptions) : Option Int :=
  match o.limit, o.offset with
  | some limit, some page => some ((page - 1) * limit)
  | _, _ => none

/-! ## 1. Reading one option -/

/-- A reading of an option: the value, or problems with their places below the option. -/
abbrev Reading (α : Type) := Except (List Problem) α

/-- A problem with an option as a whole. -/
def problem {α : Type} (name : OptionName) (kind : ProblemKind) : Reading α :=
  .error [⟨[.str name.text], kind⟩]

/-- A key as the place of a problem: a truth value counts as the number zero or one. -/
def keyPlace : Value → Value
  | .bool b => .int (if b then 1 else 0)
  | key => key

/-- The filter of a mapping: every key has to be a text. -/
def filterEntries : Entries → Dictionary Value × List Problem
  | [] => ([], [])
  | (key, value) :: rest =>
    let (named, problems) := filterEntries rest
    match Field.text key with
    | .ok name => ((name, value) :: named, problems)
    | .error kind =>
      (named, ⟨[.str OptionName.filter.text, keyPlace key, .str "[key]"], kind⟩ :: problems)

/-- The filter: null says nothing, and a filter expression stands for its mapping. -/
def readFilter : Value → Reading (Dictionary Value)
  | .null => .ok []
  | .mappingAt entries _ =>
    match filterEntries entries with
    | (named, []) => .ok (Dictionary.ofList named)
    | (_, problems) => .error problems
  | _ => problem .filter .dictType

/-- Column names one by one, each with its place in the list. -/
def readNames (name : OptionName) (index : Nat) : List Value → List String × List Problem
  | [] => ([], [])
  | item :: rest =>
    let (names, problems) := readNames name (index + 1) rest
    match Field.text item with
    | .ok text => (text :: names, problems)
    | .error kind => (names, ⟨[.str name.text, .int index], kind⟩ :: problems)

/-- A list of column names. -/
def readNameList (name : OptionName) (v : Value) : Reading (List String) :=
  match v.sequence? with
  | none => problem name .listType
  | some items =>
    match readNames name 0 items with
    | (names, []) => .ok names
    | (_, problems) => .error problems

/-- An option that a field reader reads. -/
def readField {α : Type} (name : OptionName) (read : Value → Except ProblemKind α) (v : Value) :
    Reading α :=
  match read v with
  | .ok a => .ok a
  | .error kind => problem name kind

/-! ## 2. Checking all options -/

/-- The value that an option is read from.  The filter and the list of excluded columns can be given
as a filter expression, which stands for its mapping. -/
def optionValue (name : OptionName) (v : Value) : Except Fault Value :=
  if (name = .filter || name = .exclude) && v.isExpression then Filter.toWhere v else .ok v

/-- Reads an option that was given, and notes its problems. -/
def readOption {α : Type} (arguments : Dictionary Value) (name : OptionName) (absent : α)
    (read : Value → Reading α) : StateT (List Problem) (Except Fault) α := do
  match arguments.get? name.text with
  | none => return absent
  | some v =>
    match read (← optionValue name v) with
    | .ok value => return value
    | .error problems =>
      modify (· ++ problems)
      return absent

/-- Reads all options in order. -/
def readAll (arguments : Dictionary Value) :
    StateT (List Problem) (Except Fault) FindOptions := do
  let filter ← readOption arguments .filter [] readFilter
  let attributes ← readOption arguments .attributes none fun v =>
    if v.isNull then .ok none else (readNameList .attributes v).map some
  let exclude ← readOption arguments .exclude [] fun v =>
    if v.isNull then .ok [] else readNameList .exclude v
  let limit ← readOption arguments .limit none (readField .limit (Field.optional Field.positive))
  let offset ← readOption arguments .offset none (readField .offset (Field.optional Field.positive))
  let order ← readOption arguments .order none (readField .order (Field.optional Field.text))
  let group ← readOption arguments .group none (readField .group (Field.optional Field.text))
  return { filter, attributes, exclude, limit, offset, order, group,
           given := OptionName.all.filter (fun name => arguments.has name.text) }

/-- The names that are no options. -/
def unknownNames (arguments : Dictionary Value) : List String :=
  arguments.names.filter (fun name => !(OptionName.all.map OptionName.text).contains name)

/-- Checks named options. -/
def check (arguments : Dictionary Value) : Except Fault FindOptions := do
  let (options, problems) ← (readAll arguments).run []
  let unknown := (unknownNames arguments).map fun name => ⟨[.str name], .extraForbidden⟩
  let problems := problems ++ unknown
  if !problems.isEmpty then throw (.badOptions problems)
  if options.limit.isSome != options.offset.isSome then throw (.badOptions [⟨[], .valueError⟩])
  return options

/-! ## 3. Options in steps -/

/-- The value of an option. -/
def valueOf (o : FindOptions) : OptionName → Value
  | .filter => .mapping (Entries.ofNamed o.filter)
  | .attributes => match o.attributes with
    | some names => .list (names.map .str)
    | none => .null
  | .exclude => .list (o.exclude.map .str)
  | .limit => o.limit.elim .null .int
  | .offset => o.offset.elim .null .int
  | .order => o.order.elim .null .str
  | .group => o.group.elim .null .str

/-- The options that were given, as named arguments. -/
def arguments (o : FindOptions) : Dictionary Value :=
  o.given.map (fun name => (name.text, o.valueOf name))

/-- The arguments of a mapping, whose keys have to be texts. -/
def namedArguments (entries : Entries) : Except Fault (Dictionary Value) :=
  match entries.named? with
  | some named => .ok named
  | none => .error .wrongType

/-- Options from a source, with named ones on top.  Options checked before pass unchanged when
nothing is added. -/
def parse (source : OptionSource) (more : Dictionary Value) : Except Fault FindOptions :=
  match source with
  | .checked options =>
    if more.isEmpty then .ok options else check (Dictionary.update options.arguments more)
  | .nothing => check more
  | .entries entries => do check (Dictionary.update (← namedArguments entries) more)
  | .unusable => .error .wrongType

/-- Whether options from a source pass unchanged. -/
def passes (source : OptionSource) (more : Dictionary Value) : Bool :=
  match source with
  | .checked _ => more.isEmpty
  | _ => false

end FindOptions
end RowMapper
