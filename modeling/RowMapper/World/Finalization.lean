import RowMapper.World.Definition

/-!
# Finalizing a model

Targets of associations are found late, so that classes can name each other.  Finalizing a model
runs its hook once, which may declare more associations, and then finds the targets of all of them.
A failure leaves the model unfinalized, to be tried again; what the hook declared stays.
-/
namespace RowMapper.World

open Model (Association Declaration Mapper ModelClass Registry parametersOf?)

/-! ## 1. Targets -/

/-- Whether the name of a table equals a text.  A bare column compares with anything, and the filter
that comes of it counts as true. -/
def namesTable (tableName : Value) (name : String) : Bool :=
  match tableName with
  | .strAt table _ => table == name
  | .filterAt (.column _) _ => true
  | _ => false

/-- Whether a class goes by a name: its own, or that of its table. -/
def goesBy (w : World) (name : String) (c : ModelClass) : Bool :=
  match c.mapper with
  | none => false
  | some mapper => c.ref.name == name || namesTable (w.look mapper.tableName) name

/-- The model that a name stands for in a module: the latest one there, or else the latest. -/
def resolveName? (w : World) (home name : String) : Option ModelRef :=
  let candidates := w.registry.classes.filter (w.goesBy name)
  let here := candidates.filter fun c => c.ref.home == home
  (here.getLast? <|> candidates.getLast?).map (·.ref)

/-- The model that a target of a class stands for. -/
def resolveTarget (w : World) (owner : ModelRef) (target : Value) : Except Fault ModelRef :=
  let failure : Except Fault ModelRef :=
    .error (.association (.unresolved (w.expand target) owner.name))
  match w.look target with
  | .model ref => if (w.registry.classAt ref.id).mapper.isSome then .ok ref else failure
  | .strAt name _ =>
    match w.resolveName? owner.home name with
    | some ref => .ok ref
    | none => failure
  | _ => failure

/-- Changes an association. -/
def updateAssociation (index : Nat) (change : Association → Association) : Action World Unit :=
  modifyRegistry fun r => r.updateAssociation index change

/-- Finds the targets of an association of a class. -/
def resolveAssociation (owner : ModelRef) (index : Nat) : Action World Unit := do
  let a := (← get).registry.associationAt index
  let target ← reading (·.resolveTarget owner a.target)
  updateAssociation index fun a => { a with resolved := some target }
  match a.kind with
  | .belongsToMany through _ _ =>
    let found ← reading (·.resolveTarget owner through)
    updateAssociation index fun a => { a with resolvedThrough := some found }
  | _ => return

/-! ## 2. Declaring -/

/-- Changes the mapper of a class. -/
def updateMapper (id : Nat) (change : Mapper → Mapper) : Action World Unit :=
  modifyRegistry fun r =>
    let c := r.classAt id
    { r with classes := r.classes.set id { c with mapper := c.mapper.map change } }

/-- Refuses a name that counts as false, or that an association or a column of the model has. -/
def checkName (model : String) (m : Mapper) (name : Value) : Except Fault Unit :=
  if !name.truthy then .error (.association (.unnamed model))
  else if !name.hashable then .error .wrongType
  else if Entries.has m.associations name then .error (.association (.duplicate model name))
  else if m.columns.names.any (fun column => name.sameKey (.str column)) then
    .error (.association (.clashesWithColumn model name))
  else .ok ()

/-- Whether a class can declare an association with a word: it has to descend from the root. -/
def checkWord (w : World) (id : Nat) (word : String) : Except Fault Unit :=
  if w.registry.descends id 0 && (parametersOf? word).isSome then .ok () else .error .noAttribute

/-- Adds an association under a name to a class, and answers its number. -/
def addAssociation (id : Nat) (name : Value) (a : Association) : Action World Nat := do
  let name ← storeKey name
  let a ← storeAssociation { a with name }
  let w ← get
  let (registry, index) := w.registry.addAssociation a
  set { w with registry }
  updateMapper id fun m => { m with associations := m.associations ++ [(name, index)] }
  return index

/-- Declares an association of a class and answers its number.  The targets of an association of a
finalized class are found at once. -/
def declare (id : Nat) (word : String) (arguments : Dictionary Value) : Action World Nat := do
  let some given := arguments.get? "as" | throw .wrongType
  let name := (← get).expand given
  let others := arguments.filter fun entry => entry.1 != "as"
  let association ← Action.ofExcept (Association.ofArguments word others)
  let mapper ← reading (·.mapper id)
  let owner := ((← get).registry.classAt id).ref
  Action.ofExcept (checkName owner.name mapper name)
  let index ← addAssociation id name association
  if mapper.finalized then resolveAssociation owner index
  return index

/-- Carries out a declaration that was written down earlier. -/
def runDeclaration (id : Nat) (d : Declaration) : Action World Unit := do
  reading (·.checkWord id d.word)
  let arguments ← reading fun w => Term.evalNamed w.scope d.arguments
  discard (declare id d.word arguments)

/-! ## 3. Finalizing -/

/-- The hook of a class: that of its nearest ancestor that has one. -/
def hookOf (r : Registry) (id : Nat) : List Declaration :=
  ((r.classAt id).ancestry.findSome? fun ancestor => (r.classAt ancestor).hook).getD []

/-- Runs the hook of a class and finds the targets of its associations. -/
def runHook (id : Nat) : Action World Unit := do
  let r := (← get).registry
  (hookOf r id).forM (runDeclaration id)
  let mapper ← reading (·.mapper id)
  mapper.associations.forM fun entry => resolveAssociation (r.classAt id).ref entry.2

/-- Finalizes a class, unless it is; that there was something to do is reported afterwards. -/
def finalize (id : Nat) : Action World Unit := do
  let mapper ← reading (·.mapper id)
  if mapper.finalized then return
  updateMapper id fun m => { m with finalized := true }
  match ← (runHook id).attempt with
  | .ok _ =>
    let mapper ← reading (·.mapper id)
    debug "mappify.mapper" fun w => (w.mapperText id mapper).map ("Finalized " ++ ·)
  | .error fault =>
    updateMapper id fun m => { m with finalized := false }
    throw fault

/-- The association of a class under a name; the class is finalized first. -/
def associationOf (id : Nat) (name : Value) : Action World Association := do
  finalize id
  let w ← get
  let mapper ← Action.ofExcept (w.mapper id)
  if !name.hashable then throw .wrongType
  match Entries.get? mapper.associations name with
  | some index => return w.association index
  | none => throw (.association (.unknown (w.modelName id) name))

end RowMapper.World
