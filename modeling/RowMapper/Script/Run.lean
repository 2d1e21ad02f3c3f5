import RowMapper.Entity.Relation
import RowMapper.Script.Argument
import RowMapper.Script.Description
import RowMapper.Script.Report
import RowMapper.Script.Step
import RowMapper.TableDefinition

/-!
# Running a script

Steps run one after another in a world.  A step that fails does not stop the list it stands in,
except in the body of a block: there the first failure that is not passed over ends the body and
leaves the block.
-/
namespace RowMapper.Script

open World (onEngine reading)

/-! ## 1. Single steps -/

/-- Defines a class and answers its number. -/
def defineClass (d : Draft) : Action World Nat := do
  World.defineShared (← reading fun w => d.eval w.scope)

/-- The name under which the class of a new entity is passed, which is none for an attribute. -/
def classArgument : String := "model_class"

/-- Makes an entity of a class and inserts it. -/
def createEntity (session : String) (id : Nat) (properties : Dictionary Value) :
    Action World Value := do
  if properties.has classArgument then throw .wrongType
  if (← get).registry.descends id 0 then return .entity (← World.create session id properties)
  if properties.isEmpty then throw .noAttribute else throw .wrongType

/-- Declares an association of a class. -/
def declareAssociation (id : Nat) (word : String) (arguments : List (String × Term)) :
    Action World Value := do
  reading (·.checkWord id word)
  let arguments ← reading fun w => Term.evalNamed w.scope arguments
  let index ← World.declare id word arguments
  reading fun w => textValue (w.associationText index)

/-- Runs one operation through a session. -/
def Operation.run (session : String) : Operation → Action World Value
  | .findOne key source more => do
    let id ← model key
    let o ← options id source more
    return World.entityOrNull (← World.findOne session id o)
  | .findAll key source more => do
    let id ← model key
    let o ← options id source more
    return entityList (← World.findAll session id o)
  | .findOneAndDelete key source more => do
    let id ← model key
    let o ← options id source more
    return .bool (← World.findOneAndDelete session id o)
  | .findOrCreate key source defaults => do
    let id ← model key
    let defaults ← value defaults
    let o ← options id source noMore
    let (ref, created) ← World.findOrCreate session id o defaults
    return .tuple [.entity ref, .bool created]
  | .findOneAndUpdate key source data => do
    let id ← model key
    let data ← value data
    let o ← options id source noMore
    return .entity (← World.findOneAndUpdate session id o data)
  | .findById key id => do
    let number ← model key
    let id ← plainValue id
    return World.entityOrNull (← World.findById session number id)
  | .findByIdAndDelete key id => do
    let number ← model key
    let id ← plainValue id
    return .bool (← World.findByIdAndDelete session number id)
  | .findByIdAndUpdate key id data => do
    let number ← model key
    let id ← plainValue id
    let data ← value data
    return World.entityOrNull (← World.findByIdAndUpdate session number id data)
  | .fetch key => do
    let id ← model key
    return entityList (← World.fetch session id)
  | .describeQuery key => do
    let id ← model key
    discard (reading (·.mapper id))
    return .str ("<Query " ++ (← get).modelName id ++ ">")
  | .make key given => do
    let id ← model key
    World.instantiate id (← properties given)
  | .create key given => do
    let id ← model key
    createEntity session id (← properties given)
  | .add path => do
    let ref ← entity path
    World.bindTo session ref
    return .entity ref
  | .save path => do World.save (← entity path)
  | .update path => do return .bool (← World.update (← entity path))
  | .delete path => do return .bool (← World.delete (← entity path))
  | .toDictionary path => do
    let ref ← entity path
    let mapper ← reading (·.mapperOf ref)
    return .mapping (← reading fun w => World.toDictionary (w.entityAt ref) mapper)
  | .set path name given => do
    let ref ← entity path
    World.setEntries ref [(name, ← value given)]
    return .null
  | .setProperties path given => do
    let ref ← entity path
    World.setProperties ref (← value given)
    return .null
  | .read path => reading (·.valueAt path)
  | .same path other => do
    let first ← reading (·.valueAt path)
    let second ← reading (·.valueAt other)
    return .bool (isSame first second)
  | .inspect path => do
    let ref ← entity path
    reading fun w => inspection w ref
  | .populate path relation attributes exclude => do
    let ref ← entity path
    let attributes ← plainValue attributes
    let exclude ← plainValue exclude
    World.populate ref relation ⟨attributes, exclude⟩
    return .entity ref
  | .attach path target relation => do
    let ref ← entity path
    let target ← plainValue target
    World.attach ref target relation
    return .entity ref
  | .define d => do
    let id ← defineClass d
    reading fun w => mapperName w id
  | .declare key word arguments => do
    let id ← model key
    declareAssociation id word arguments
  | .finalize key => do
    World.finalize (← model key)
    return .null
  | .describeMapper key => do
    let id ← model key
    reading fun w => mapperValue w id
  | .association key name => do
    let id ← model key
    let a ← World.associationOf id (← plainValue name)
    reading fun w => textValue (a.text w.display)
  | .joiningModel key name => do
    let id ← model key
    Action.ofExcept (joiningValue (← World.associationOf id (← plainValue name)))
  | .classAttribute key name => do
    let id ← model key
    reading fun w => attributeText w id name
  | .tableDefinition key => do
    let id ← model key
    let mapper ← reading (·.mapper id)
    return .str (← reading fun w => orFault (World.tableDefinition w.registry mapper))
  | .createTables keys dropFirst => do
    let ids ← keys.mapM model
    World.createTables dropFirst ids
    return .null
  | .query text params => do
    let given ← plainValue params
    let bound ← if given.truthy then Action.ofExcept given.elements else pure []
    return answerValue (← World.query ⟨text, bound⟩)
  | .executeScript text => do
    onEngine (Engine.executeScript text)
    return .null
  | .begin => do
    onEngine Engine.begin
    return .null
  | .commit => do
    onEngine Engine.commit
    return .null
  | .rollback => do
    onEngine Engine.rollback
    return .null
  | .close => do
    onEngine Engine.close
    return .null

/-! ## 2. Steps and blocks -/

/-- Keeps the answer of a step in a variable. -/
def keep (w : World) (name : Option String) (outcome : Except Fault Value) : World :=
  match name, outcome with
  | some name, .ok v => ((World.bind name v).runOn w).2
  | _, _ => w

/-- How a block is entered. -/
def BlockKind.enter : BlockKind → Action Engine Unit
  | .transaction => Engine.begin
  | .engine => pure ()
  | .session => pure ()

/-- How a block is left after its body. -/
def BlockKind.leave : BlockKind → Except Fault Unit → Action Engine Unit
  | .transaction => Engine.leaveTransaction
  | .engine => Engine.leave
  | .session => Engine.leaveSession

/-- A body that ended well may still be ended by its caller. -/
def abortWith (abort : Option String) : Except Fault Unit → Except Fault Unit
  | .ok _ =>
    match abort with
    | some message => .error (.aborted message)
    | none => .ok ()
  | .error fault => .error fault

mutual

/-- Runs a step: how it ended, its report, and the world after it. -/
def Step.run : Step → World → Except Fault Value × Report × World
  | .single frame operation, w =>
    let (outcome, after) :=
      (operation.run frame.session).runOn { w with replies := frame.replies }
    let after := keep after frame.keepAs outcome
    (outcome, Report.of w after outcome none, after)
  | .block frame kind steps abort endReplies, w =>
    match (onEngine kind.enter).runOn { w with replies := frame.replies } with
    | (.error fault, after) => (.error fault, Report.of w after (.error fault) none, after)
    | (.ok _, entered) =>
      let (body, reports, ran) := runBody steps entered
      let leaving := onEngine (kind.leave (abortWith abort body))
      let (outcome, after) := leaving.runOn { ran with replies := endReplies }
      let outcome := outcome.map fun _ => Value.null
      let after := keep after frame.keepAs outcome
      (outcome, Report.of w after outcome (some reports), after)

/-- Runs the body of a block up to the first failure that is not passed over. -/
def runBody : List Step → World → Except Fault Unit × List Report × World
  | [], w => (.ok (), [], w)
  | step :: rest, w =>
    let (outcome, report, after) := step.run w
    match outcome, step.frame.caught with
    | .error fault, false => (.error fault, [report], after)
    | _, _ =>
      let (body, reports, last) := runBody rest after
      (body, report :: reports, last)

end

/-- Runs all steps of a script. -/
def runSteps (steps : List Step) (w : World) : List Report × World :=
  steps.foldl (fun (reports, w) step =>
    let (_, report, after) := step.run w
    (reports ++ [report], after)) ([], w)

/-- What a script is told of a class that was defined: its mapper, or of a mixin that it is
there. -/
def definedValue (isMixin : Bool) (id : Nat) : Action World Value :=
  if isMixin then return .bool true else reading fun w => mapperName w id

/-- Defines classes one after another, and reports on each. -/
def defineAll (drafts : List Draft) (w : World) : List (Except Failure View) × World :=
  drafts.foldl (fun (reports, w) d =>
    let (outcome, after) := (defineClass d >>= definedValue d.isMixin).runOn w
    (reports ++ [outcomeView after outcome], after)) ([], w)

/-- Runs a script over a fresh engine: the reports on its classes and on its steps. -/
def run (logStatements : Bool) (drafts : List Draft) (steps : List Step) :
    List (Except Failure View) × List Report :=
  let engine : Engine := { logStatements, debugging := logStatements }
  let (defined, w) := defineAll drafts { engine }
  (defined, (runSteps steps w).1)

end RowMapper.Script
