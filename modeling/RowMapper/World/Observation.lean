import RowMapper.World.Basic

/-!
# What is seen of a world

How values are printed, and the views of values.  An entity is printed with its key.  One whose
class has no key cannot be printed, nor can a value that has such an entity in it.
-/
namespace RowMapper.World

open Model (Mapper)

/-! ## 1. Printing -/

/-- How an entity with a key is printed. -/
def entityText (model key : String) : String := "<" ++ model ++ "(id=" ++ key ++ ")>"

/-- Prints an entity, a column or an association.  An entity leads to its key and an association to
what it was declared with; `depth` bounds how often this is followed. -/
def printReference (w : World) : Nat → ReferencePrinter
  | 0, _, _ => .error .endless
  | depth + 1, opened, v =>
    let display (part : Value) : Printed :=
      (w.expand part).displayIn (w.printReference depth) opened
    match v with
    | .entity ref =>
      match w.keyValue ref with
      | .ok .null => .ok (entityText ref.model "New")
      | .ok key => (display key).map (entityText ref.model)
      | .error _ => .error .keyless
    | .column ref => .ok (w.registry.columnAt ref.index).text
    | .association ref => (w.registry.associationAt ref.index).text display
    | v => .ok ("<" ++ v.kind ++ ">")

/-- How often references are followed.  A way that goes on longer meets a reference twice without a
collection that was opened in between, and so has no end. -/
def printingDepth (w : World) : Nat :=
  (w.shelf.length + 2) * (w.entities.length + w.registry.associations.length + 2)

/-- The value as it would be written in a program. -/
def literal (w : World) (v : Value) : Printed :=
  (w.expand v).literalIn (w.printReference w.printingDepth) []

/-- The value as it stands inside a sentence. -/
def display (w : World) (v : Value) : Printed := (w.expand v).displayBy w.literal

/-- A column as it is printed. -/
def columnText (w : World) (index : Nat) : String := (w.registry.columnAt index).text

/-- An association as it is printed. -/
def associationText (w : World) (index : Nat) : Printed :=
  (w.registry.associationAt index).text w.display

/-- The mapper of a class as it is printed. -/
def mapperText (w : World) (model : Nat) (m : Mapper) : Printed :=
  w.registry.mapperText w.literal model m

/-! ## 2. Views -/

/-- The view of an entity inside the entities `around` it.  These are all different, so there are no
more levels than entities. -/
def entityView (w : World) : Nat → List Nat → EntityRef → View
  | 0, _, ref => .again ref.model
  | depth + 1, around, ref =>
    if around.contains ref.id then .again ref.model
    else
      let entity := w.entityAt ref
      let shown (v : Value) : View :=
        (w.expand v).view w.literal (w.entityView depth (ref.id :: around))
      .entity ref.model entity.state entity.session.isSome <|
        entity.attributes.map fun entry => (shown entry.1, shown entry.2)

/-- The view of a value. -/
def view (w : World) (v : Value) : View :=
  (w.expand v).view w.literal (w.entityView (w.entities.length + 1) [])

/-- How values look in a world. -/
def observer (w : World) : Observer := ⟨w.literal, w.view⟩

end RowMapper.World
