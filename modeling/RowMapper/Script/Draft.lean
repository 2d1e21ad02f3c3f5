import RowMapper.Model.Definition

/-!
# Drafts of classes

A class as it is written in a script, with terms in the places of values.  Evaluating a draft gives
the definition of the class.  The settings come first, and then the attributes in the order in which
they are written; an attribute that is written twice is evaluated twice.  What is made anew each
time, a default or an association of the hook, is not evaluated yet.
-/
namespace RowMapper.Script

open Model (Association AttributeBody Column Declaration Default Definition)

/-- What stands for the values of a column in new rows, as it is written. -/
inductive DefaultDraft where
  | fixed (t : Term)
  | fresh (t : Term)
  deriving Inhabited

/-- An attribute as it is written. -/
inductive AttributeDraft where
  | column (c : Column) (absent : Option DefaultDraft)
  | association (word : String) (arguments : List (String × Term))
  | plain (t : Term)
  deriving Inhabited

/-- A class as it is written. -/
structure Draft where
  name : String
  key : String
  home : String := "app"
  bases : List String := ["Model"]
  isMixin : Bool := false
  settings : Option (List (String × Term)) := none
  attributes : List (String × AttributeDraft) := []
  hook : Option (List Declaration) := none
  deriving Inhabited

/-- Evaluates a default; null as the one value for all rows is none. -/
def DefaultDraft.eval (scope : Scope) : DefaultDraft → Except Fault (Option Default)
  | .fixed t => do
    let v ← t.eval scope
    return if v.isNull then none else some (.fixed v)
  | .fresh t => .ok (some (.fresh t))

/-- Evaluates an attribute. -/
def AttributeDraft.eval (scope : Scope) : AttributeDraft → Except Fault AttributeBody
  | .column c absent => do
    match absent with
    | some d => return .column { c with absent := ← d.eval scope }
    | none => return .column c
  | .association word arguments => do
    return .association (← Association.ofArguments word (← Term.evalNamed scope arguments))
  | .plain t => do return .plain (← t.eval scope)

/-- Evaluates attributes in order. -/
def AttributeDraft.evalAll (scope : Scope) :
    List (String × AttributeDraft) → Except Fault (List (String × AttributeBody))
  | [] => .ok []
  | (name, draft) :: rest => do
    let first ← draft.eval scope
    let others ← evalAll scope rest
    return (name, first) :: others

/-- Evaluates a draft. -/
def Draft.eval (scope : Scope) (d : Draft) : Except Fault Definition := do
  let settings ← match d.settings with
    | some settings => do pure (some (← Term.evalNamed scope settings))
    | none => pure none
  let attributes ← AttributeDraft.evalAll scope d.attributes
  return { name := d.name, key := d.key, home := d.home, bases := d.bases, settings, attributes,
           hook := d.hook }

end RowMapper.Script
