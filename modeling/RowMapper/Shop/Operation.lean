import RowMapper.Entity.Relation
import RowMapper.Json.Reader
import RowMapper.Shop.Catalogue
import RowMapper.Shop.Response
import RowMapper.Where.Depth

/-!
# What the shop does

One action for each thing that can be asked of the shop, once the parts of the request are read.
-/
namespace RowMapper.Shop

/-- The session that all requests share. -/
def session : String := "main"

/-- The entries of an entity as they are sent. -/
def entriesOf (ref : EntityRef) : Action World Entries := do
  let mapper ← World.reading (·.mapperOf ref)
  World.reading fun w => World.toDictionary (w.entityAt ref) mapper

/-- The entries of an entity as they are sent, with one more. -/
def entriesWith (ref : EntityRef) (name : String) (value : Value) : Action World Value := do
  return .mapping (Entries.insert (← entriesOf ref) (.str name) value)

/-- Entities as they are sent. -/
def listOf (refs : List EntityRef) : Action World Response := do
  let items ← refs.mapM entriesOf
  return .content 200 (.list (items.map .mapping))

/-- The entities in a list. -/
def entitiesIn : Value → List EntityRef
  | .listAt items _ => items.filterMap fun item =>
    match item with
    | .entity ref => some ref
    | _ => none
  | _ => []

/-- The response when there is no product. -/
def noProduct : Response := detail 404 "Product not found"

/-- The response when there is no category. -/
def noCategory : Response := detail 404 "Category not found"

/-- The filter that a text gives: nothing, or a JSON object. -/
def filterOf : Value → Except Fault Value
  | .strAt text _ =>
    if text.isEmpty then .ok (.mapping [])
    else
      match Json.readText text.toList with
      | .ok (.mappingAt entries _) => .ok (.mapping entries)
      | .ok _ => .error (.rejected .whereNotObject)
      | .error (.malformed complaint left) =>
        .error (.rejected (.whereNotJson (Json.describe text.toList complaint left)))
      | .error (.tooManyDigits digits) => .error (.badValue (.tooManyDigits digits))
      | .error .tooDeep => .error .tooDeep
  | _ => .ok (.mapping [])

/-- How deep a filter may go: there is room for a thousand steps, and some are taken before. -/
def maxFilterDepth : Nat := 993

/-- Refuses a filter that goes too deep, but for what is malformed before that place. -/
def checkDepth (filter : Dictionary Value) : Except Fault Unit := do
  let entries := Entries.ofNamed filter
  let fits (entry : Value × Value) : Bool := Where.entriesDepth [entry] ≤ maxFilterDepth
  if !entries.all fits then
    discard (orFault (Where.compileEntries (entries.takeWhile fits)))
    throw .tooDeep

/-- The products that a filter matches, or a page of them. -/
def listProducts (filter limit offset order : Value) : Action World Response := do
  let filter ← Action.ofExcept (filterOf filter)
  let options ← Action.ofExcept <| FindOptions.parse .nothing [("where", filter), ("limit", limit),
    ("offset", offset), ("order", order)]
  Action.ofExcept (checkDepth options.filter)
  listOf (← World.findAll session (modelOf product) options)

/-- One product. -/
def showProduct (id : Int) : Action World Response := do
  match ← World.findById session (modelOf product) (.int id) with
  | some ref => return .content 200 (.mapping (← entriesOf ref))
  | none => return noProduct

/-- What a relation of an entity leads to. -/
def listRelated (ref : EntityRef) (relation : String) (shape : World.Shape) :
    Action World Response := do
  World.populate ref (.str relation) shape
  let loaded ← World.reading (·.readAttribute ref relation)
  listOf (entitiesIn ((← get).look loaded))

/-- The tags of a product. -/
def listTags (id : Int) : Action World Response := do
  match ← World.findById session (modelOf product) (.int id) with
  | some ref => listRelated ref "tags" {}
  | none => return noProduct

/-- Adds a product. -/
def addProduct (fields : Dictionary Value) : Action World Response := do
  let ref ← World.create session (modelOf product) fields
  return .content 201 (← entriesWith ref "message" (.str "Product added successfully"))

/-- Changes the given fields of a product. -/
def changeProduct (id : Int) (fields : Dictionary Value) : Action World Response := do
  let changes := fields.filter fun entry => !entry.2.isNull
  match ← World.findByIdAndUpdate session (modelOf product) (.int id) (named changes) with
  | some ref => return .content 200 (← entriesWith ref "message" (.str "Product updated"))
  | none => return noProduct

/-- Deletes a product. -/
def deleteProduct (id : Int) : Action World Response := do
  discard (World.findByIdAndDelete session (modelOf product) (.int id))
  return .content 200 (named [("message", .str "Product deleted")])

/-- All categories by name. -/
def listCategories : Action World Response := do
  let options ← Action.ofExcept (FindOptions.parse .nothing [("order", .str "name ASC")])
  listOf (← World.findAll session (modelOf category) options)

/-- Adds a category, unless there is one of the name. -/
def addCategory (fields : Dictionary Value) : Action World Response := do
  let field := Parameters.valueIn fields
  let options ← Action.ofExcept <| FindOptions.parse .nothing
    [("where", named [("name", field "name")])]
  let defaults := named [("description", field "description")]
  let (ref, created) ← World.findOrCreate session (modelOf category) options defaults
  return .content 201 (← entriesWith ref "created" (.bool created))

/-- The products of a category. -/
def listCategoryProducts (id : Int) : Action World Response := do
  match ← World.findById session (modelOf category) (.int id) with
  | some ref => listRelated ref "products" { exclude := .list [.str "category_id"] }
  | none => return noCategory

end RowMapper.Shop
