import RowMapper.ReplyDraft
import RowMapper.Script.Draft

/-!
# Steps of a script

A script is a list of steps.  A step does one thing through a session or over the engine; a block
runs steps inside a transaction, or inside a block that owns the engine or a session.
-/
namespace RowMapper.Script

/-- What a step does.  Classes are named by their keys, and entities by the variables that hold
them. -/
inductive Operation where
  | findOne (model : String) (options more : Term)
  | findAll (model : String) (options more : Term)
  | findOneAndDelete (model : String) (options more : Term)
  | findOrCreate (model : String) (options defaults : Term)
  | findOneAndUpdate (model : String) (options data : Term)
  | findById (model : String) (id : Term)
  | findByIdAndDelete (model : String) (id : Term)
  | findByIdAndUpdate (model : String) (id data : Term)
  | fetch (model : String)
  | describeQuery (model : String)
  | make (model : String) (properties : Term)
  | create (model : String) (properties : Term)
  | add (entity : List String)
  | save (entity : List String)
  | update (entity : List String)
  | delete (entity : List String)
  | toDictionary (entity : List String)
  | set (entity : List String) (name : Value) (value : Term)
  | setProperties (entity : List String) (properties : Term)
  | read (path : List String)
  | same (path other : List String)
  | inspect (entity : List String)
  | populate (entity : List String) (relation : Value) (attributes exclude : Term)
  | attach (entity : List String) (target : Term) (relation : Value)
  | define (draft : Draft)
  | declare (model word : String) (arguments : List (String × Term))
  | finalize (model : String)
  | describeMapper (model : String)
  | association (model : String) (name : Term)
  | joiningModel (model : String) (name : Term)
  | classAttribute (model : String) (name : String)
  | tableDefinition (model : String)
  | createTables (models : List String) (dropFirst : Bool)
  | query (text : String) (params : Term)
  | executeScript (text : String)
  | begin
  | commit
  | rollback
  | close
  deriving Inhabited

/-- The kinds of block: a transaction, and the blocks that own the engine or a session. -/
inductive BlockKind where
  | transaction | engine | session
  deriving DecidableEq, Inhabited

/-- What all steps have: the replies that the connection gives during the step, the session that it
works through, the variable that keeps its answer, and whether a failure is passed over. -/
structure Frame where
  replies : List ReplyDraft := []
  session : String := "main"
  keepAs : Option String := none
  caught : Bool := false

instance : Inhabited Frame := ⟨{}⟩

/-- One step.  A block can end its body with a failure of its own, and has replies for leaving. -/
inductive Step where
  | single (frame : Frame) (operation : Operation)
  | block (frame : Frame) (kind : BlockKind) (steps : List Step) (abort : Option String)
      (endReplies : List ReplyDraft)
  deriving Inhabited

/-- What is common to all steps. -/
def Step.frame : Step → Frame
  | .single frame _ => frame
  | .block frame _ _ _ _ => frame

end RowMapper.Script
