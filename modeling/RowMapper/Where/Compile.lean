import RowMapper.Where.Condition

/-!
# From filters to conditions

A filter is a mapping.  Its entries are joined by AND in their order.  The keys `and` and `or` take
a list of mappings, `not` takes a mapping, and any other key is a column with a value, null, or a
mapping of operators.  `conditions` reads the entries and stops at the first that is malformed;
`compile` writes what it read as an SQL fragment.
-/
namespace RowMapper.Where

/-- The role of a key of a filter. -/
inductive Role where
  | join (logic : Logic)
  | negation
  | column
  deriving DecidableEq, Inhabited

/-- The role of a key: three words are reserved, and any other key is a column. -/
def roleOf : Value → Role
  | .strAt "and" _ => .join .all
  | .strAt "or" _ => .join .any
  | .strAt "not" _ => .negation
  | _ => .column

/-- A column whose value is neither a mapping nor a list: it equals the value or is null. -/
def scalarCondition (column : String) : Value → Condition
  | .null => .nullness column false
  | v => .compare column .eq v

/-- An operator on a column, for all operators but `not`. -/
def operatorCondition (key : Value) (column word : String) (operator : Operator) (operand : Value) :
    Except Rejection Condition :=
  match operator with
  | .compare comparison =>
    match operand with
    | .mappingAt _ _ | .listAt _ _ | .tupleAt _ _ => .error (.notSingle word key operand)
    | .null =>
      match comparison with
      | .eq => .ok (.nullness column false)
      | .ne => .ok (.nullness column true)
      | _ => .error (.comparedWithNull word key)
    | v => .ok (.compare column comparison v)
  | .member negated =>
    match operand.sequence? with
    | none => .error (.notList word key operand)
    | some [] => .ok (.constant negated)
    | some operands => .ok (.member column negated operands)
  | .range negated =>
    match operand.sequence? with
    | some [low, high] => .ok (.range column negated low high)
    | _ => .error (.notTwo word key operand)
  | .nullness negated =>
    match operand with
    | .bool true => .ok (.nullness column negated)
    | _ => .error (.notTrue word key operand)
  | .join logic => .error (.logicAsOperator logic.name key)
  | .negation => .error (.unknownOperator (.str word) key)

/-- The operator that a key of an operator mapping names. -/
def operatorOf (key operator : Value) : Except Rejection (String × Operator) :=
  match operator with
  | .strAt word _ =>
    match Operator.ofWord? word with
    | some op => .ok (word, op)
    | none => .error (.unknownOperator operator key)
  | _ => .error (.unknownOperator operator key)

mutual

/-- The conditions of the operators on a column. -/
def operatorConditions (key : Value) (column : String) :
    List (Value × Value) → Except Rejection (List Condition)
  | [] => .ok []
  | (operator, operand) :: rest => do
    let (word, op) ← operatorOf key operator
    let first ← match op with
      | .negation => (negatedColumn key column operand).map .negation
      | op => operatorCondition key column word op operand
    let others ← operatorConditions key column rest
    return first :: others

/-- The conditions of the value that `not` is given on a column: any value that a column takes. -/
def negatedColumn (key : Value) (column : String) : Value → Except Rejection (List Condition)
  | .mappingAt entries _ =>
    if entries.isEmpty then .error (.noOperators key) else operatorConditions key column entries
  | .listAt _ _ => .error (.columnIsList key)
  | .tupleAt _ _ => .error (.columnIsList key)
  | v => .ok [scalarCondition column v]

end

/-- The conditions of a column entry. -/
def columnConditions (key value : Value) : Except Rejection (List Condition) := do
  let column ← Sql.safeName key
  negatedColumn key column value

mutual

/-- The conditions of the entries of a filter. -/
def conditions : List (Value × Value) → Except Rejection (List Condition)
  | [] => .ok []
  | (key, value) :: rest => do
    let first ← entryConditions (roleOf key) key value
    let others ← conditions rest
    return first ++ others

/-- The conditions of one entry, given the role of its key. -/
def entryConditions (role : Role) (key : Value) : Value → Except Rejection (List Condition)
  | .mappingAt entries place =>
    match role with
    | .join logic => .error (.groupNotList logic.name)
    | .negation =>
      if entries.isEmpty then .error .negationNotMapping
      else (conditions entries).map fun parts => [.negation parts]
    | .column => columnConditions key (.mappingAt entries place)
  | .listAt items place =>
    match role with
    | .join logic =>
      if items.isEmpty then .error (.groupNotList logic.name)
      else (groupConditions logic items).map fun parts => [.group logic parts]
    | .negation => .error .negationNotMapping
    | .column => columnConditions key (.listAt items place)
  | .tupleAt items place =>
    match role with
    | .join logic =>
      if items.isEmpty then .error (.groupNotList logic.name)
      else (groupConditions logic items).map fun parts => [.group logic parts]
    | .negation => .error .negationNotMapping
    | .column => columnConditions key (.tupleAt items place)
  | v =>
    match role with
    | .join logic => .error (.groupNotList logic.name)
    | .negation => .error .negationNotMapping
    | .column => columnConditions key v

/-- The conditions of the entries of a group. -/
def groupConditions (logic : Logic) : List Value → Except Rejection (List (List Condition))
  | [] => .ok []
  | item :: rest => do
    let first ← itemConditions logic item
    let others ← groupConditions logic rest
    return first :: others

/-- The conditions of one entry of a group, which has to be a mapping with entries. -/
def itemConditions (logic : Logic) : Value → Except Rejection (List Condition)
  | .mappingAt entries place =>
    if entries.isEmpty then .error (.groupEntry logic.name (.mappingAt entries place))
    else conditions entries
  | v => .error (.groupEntry logic.name v)

end

/-- Compiles the entries of a filter. -/
def compileEntries (entries : List (Value × Value)) : Except Rejection Sql.Fragment :=
  (conditions entries).map compileConjunction

/-- Compiles a filter; one that counts as false says nothing. -/
def compile (filter : Value) : Except Rejection Sql.Fragment :=
  if filter.truthy then
    match filter with
    | .mappingAt entries _ => compileEntries entries
    | v => .error (.whereNotMapping v.kind)
  else .ok ⟨"", []⟩

end RowMapper.Where
