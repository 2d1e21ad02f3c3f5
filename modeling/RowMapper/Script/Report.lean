import RowMapper.World.Observation

/-!
# Reports

What can be seen of an operation after it ended: its answer or its failure, the calls of the
connection, the records of the journal, and whether a transaction is open.
-/
namespace RowMapper.Script

/-- A failure as it is seen from outside.  `place` is the statement with its parameters, where the
failure is one of the database, and `problems` are the places and names of what is wrong with
options. -/
structure Failure where
  fault : Fault
  message : Option String
  place : Option (Option String × Option (List View))
  problems : List (List String × String)

/-- A call of the connection as it is seen from outside. -/
inductive CallView where
  | statement (text : String) (params : List View)
  | script (text : String)
  | close

/-- The report of a step; a block reports its steps. -/
inductive Report where
  | mk (outcome : Except Failure View) (calls : List CallView) (journal : List LogRecord)
      (inTransaction : Bool) (nested : Option (List Report))

/-- A failure as it is seen in a world. -/
def Failure.ofFault (w : World) (fault : Fault) : Failure :=
  let (fault, message) := fault.inWords w.literal
  let place := match fault with
    | .database _ statement params => some (statement, params.map (List.map w.view))
    | .transaction _ => some (none, none)
    | _ => none
  let problems := match fault with
    | .badOptions problems => problems.map fun p => (p.place w.literal, p.kind.name)
    | _ => []
  ⟨fault, message, place, problems⟩

/-- An outcome as it is seen in a world. -/
def outcomeView (w : World) : Except Fault Value → Except Failure View
  | .ok v => .ok (w.view v)
  | .error fault => .error (Failure.ofFault w fault)

/-- An exchange as it is seen from outside, with what was seen of the parameters at the time. -/
def CallView.ofExchange (exchange : Exchange) : CallView :=
  match exchange.call with
  | .statement text _ => .statement text exchange.seen
  | .script text => .script text
  | .close => .close

/-- The calls that were made after the first `known` ones. -/
def callsAfter (w : World) (known : Nat) : List CallView :=
  (w.engine.connection.trace.drop known).map CallView.ofExchange

/-- The report of an operation that led from one world to another. -/
def Report.of (before after : World) (outcome : Except Fault Value)
    (nested : Option (List Report)) : Report :=
  .mk (outcomeView after outcome) (callsAfter after before.engine.connection.trace.length)
    (after.engine.journal.drop before.engine.journal.length) after.engine.inTransaction nested

end RowMapper.Script
