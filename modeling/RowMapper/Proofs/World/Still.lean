import RowMapper.Proofs.World.Call

/-!
# What leaves entities and classes alone

`Still` relates two worlds that differ in the engine, in variables, and in what was added to the
shelf.  Asking the database and putting values on the shelf go from one such world to another.
-/
namespace RowMapper.World

open Model (Association AssociationKind AttributeBody Definition)

/-- The entities and the registry are as they were, and the shelf only grows. -/
structure Still (w w' : World) : Prop where
  entities_eq : w'.entities = w.entities
  registry_eq : w'.registry = w.registry
  shelf_prefix : w.shelf <+: w'.shelf

instance : IsPreorder World Still where
  refl _ := ⟨rfl, rfl, List.prefix_rfl⟩
  trans _ _ _ h h' := ⟨h'.entities_eq.trans h.entities_eq, h'.registry_eq.trans h.registry_eq,
    h.shelf_prefix.trans h'.shelf_prefix⟩

variable {α β : Type}

/-! ## 1. Asking the database -/

theorem reading_still (read : World → Except Fault α) : (reading read).Obeys Still :=
  fun w => refl_of Still w

theorem onEngine_still (action : Action Engine α) : (onEngine action).Obeys Still :=
  fun _ => ⟨rfl, rfl, List.prefix_rfl⟩

theorem debug_still (source : String) (message : World → Printed) :
    (debug source message).Obeys Still :=
  .bind .get fun _ => .ite (.bind (.ofExcept _) fun _ => onEngine_still _) (.pure _)

theorem query_still (f : Sql.Fragment) : (query f).Obeys Still :=
  .bind .get fun _ => onEngine_still _

/-! ## 2. Putting values on the shelf -/

theorem store_still (v : Value) : (store v).Obeys Still :=
  fun w => ⟨rfl, rfl, (Shelf.store_grows v w.shelf).isPrefix⟩

theorem storeKey_still (key : Value) : (storeKey key).Obeys Still :=
  fun w => ⟨rfl, rfl, (Shelf.putKey_grows w.shelf key).isPrefix⟩

theorem bind_still (name : String) (v : Value) : (World.bind name v).Obeys Still :=
  .bind (store_still v) fun _ _ => ⟨rfl, rfl, List.prefix_rfl⟩

theorem storeKind_still (kind : AssociationKind) : (storeKind kind).Obeys Still := by
  cases kind with
  | hasOne => exact .pure _
  | hasMany => exact .pure _
  | belongsTo key => exact .bind (store_still key) fun _ => .pure _
  | belongsToMany through otherKey key =>
    exact .bind (store_still through) fun _ => .bind (store_still otherKey) fun _ =>
      .bind (store_still key) fun _ => .pure _

theorem storeAssociation_still (a : Association) : (storeAssociation a).Obeys Still :=
  .bind (storeKind_still a.kind) fun _ => .bind (store_still a.target) fun _ =>
    .bind (store_still a.foreignKey) fun _ => .pure _

theorem storeAttribute_still (body : AttributeBody) : (storeAttribute body).Obeys Still := by
  cases body with
  | column c =>
    rw [storeAttribute]
    split
    · exact .bind (store_still _) fun _ => .pure _
    · exact .pure _
  | association a => exact .bind (storeAssociation_still a) fun _ => .pure _
  | plain v => exact .bind (store_still v) fun _ => .pure _

theorem storeNamed_still (named : Dictionary Value) : (storeNamed named).Obeys Still := by
  induction named with
  | nil => exact .pure _
  | cons entry rest ih => exact .bind (store_still entry.2) fun _ => .bind ih fun _ => .pure _

theorem storeAttributes_still (attributes : List (String × AttributeBody)) :
    (storeAttributes attributes).Obeys Still := by
  induction attributes with
  | nil => exact .pure _
  | cons entry rest ih =>
    exact .bind (storeAttribute_still entry.2) fun _ => .bind ih fun _ => .pure _

/-- Puts the settings of a class on the shelf, when it has any. -/
def storeSettings : Option (Dictionary Value) → Action World (Option (Dictionary Value))
  | none => return none
  | some settings => return some (← storeNamed settings)

theorem storeSettings_still (settings : Option (Dictionary Value)) :
    (storeSettings settings).Obeys Still := by
  cases settings with
  | none => exact .pure _
  | some settings => exact .bind (storeNamed_still settings) fun _ => .pure _

/-- A class is defined when everything in its body lies on the shelf. -/
theorem defineShared_eq (d : Definition) : defineShared d = (do
    let settings ← storeSettings d.settings
    let attributes ← storeAttributes d.attributes
    define { d with settings, attributes }) := by
  rw [defineShared]
  cases d.settings with
  | none => rfl
  | some settings => exact (bind_assoc (storeNamed settings) _ _).symm

/-! ## 3. Making tables -/

theorem createTable_still (dropFirst : Bool) (model : Nat) :
    (createTable dropFirst model).Obeys Still := by
  have hcreate (mapper : Model.Mapper) : (do
      let statement ← reading fun w => orFault (tableDefinition w.registry mapper)
      discard (query ⟨statement, []⟩)
      debug "mappify.generator" fun w =>
        (w.display mapper.tableName).map ("Created table " ++ ·) : Action World Unit).Obeys Still :=
    .bind (reading_still _) fun _ => .bind (.discard (query_still _)) fun _ => debug_still _ _
  exact .bind (reading_still _) fun mapper => .ite
    (.bind (.ofExcept _) fun _ => .bind (.discard (query_still _)) fun _ => hcreate mapper)
    (hcreate mapper)

theorem createTables_still (dropFirst : Bool) (models : List Nat) :
    (createTables dropFirst models).Obeys Still :=
  .forM fun model => createTable_still dropFirst model

end RowMapper.World
