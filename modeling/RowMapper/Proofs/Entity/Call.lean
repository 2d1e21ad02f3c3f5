import RowMapper.Proofs.World.Definition

/-!
# What operations on entities ask

Which statements are sent when entities are made, written, found, related and linked.  Reading never
writes: the finders and `populate` send selections only, and what is written beside that is one row
inserted, changed or removed.
-/
namespace RowMapper.World

open Model (Association Mapper)

variable {kinds : List CallKind}

/-! ## 1. Making and binding -/

theorem make_sends (model : Nat) (properties : Dictionary Value) :
    Sends kinds (make model properties) :=
  .bind .get fun _ => .bind (addEntity_sends _) fun ref =>
    .bind (setEntries_sends ref _) fun _ => .pure ref

theorem instantiate_sends (model : Nat) (properties : Dictionary Value) :
    Sends kinds (instantiate model properties) :=
  .bind .get fun _ => .ite (.bind (make_sends model properties) fun _ => .pure _)
    (.guarded fun _ => .pure _)

theorem hydrate_sends (model : Nat) (session : String) (excluded : List String) (row : Row) :
    Sends kinds (hydrate model session excluded row) :=
  .bind (make_sends model _) fun ref => .bind (updateEntity_sends ref _) fun _ => .pure ref

theorem bindTo_sends (session : String) (ref : EntityRef) : Sends kinds (bindTo session ref) :=
  .bind .get fun _ => .ite
    (.bind (debug_sends _ _) fun _ => updateEntity_sends ref _) (updateEntity_sends ref _)

theorem sessionOf_sends (ref : EntityRef) : Sends kinds (sessionOf ref) := by
  refine .bind .get fun w => ?_
  split
  · exact .pure _
  · exact .throw _

theorem setProperties_sends (ref : EntityRef) (properties : Value) :
    Sends kinds (setProperties ref properties) := by
  refine .bind .get fun w => ?_
  split
  · exact setEntries_sends ref _
  · exact .throw _

/-! ## 2. Writing -/

theorem defaultValue_sends (absent : Model.Default) : Sends kinds (defaultValue absent) := by
  rw [defaultValue.eq_def]
  split
  · exact instantiate_sends _ _
  · exact .pure _
  · exact reading_sends _

theorem insertData_sends (ref : EntityRef) (key : String) (columns : List (String × Model.Column)) :
    Sends kinds (insertData ref key columns) := by
  induction columns with
  | nil => exact .pure _
  | cons entry rest ih =>
    refine .bind .get fun w => ?_
    split
    · exact .bind ih fun _ => .pure _
    · exact .bind (defaultValue_sends _) fun _ => .bind (holdAttribute_sends ref _ _) fun _ =>
        .bind ih fun _ => .pure _
    · exact ih

theorem save_sends (ref : EntityRef) : Sends [.insertion] (save ref) := by
  have hend : Sends [.insertion] (do
      setState ref .persistent
      reading (·.keyValue ref)) :=
    .bind (setState_sends ref _) fun _ => reading_sends _
  refine .bind (sessionOf_sends ref) fun _ => .bind (reading_sends _) fun mapper => .bind .get
    fun w => .bind (insertData_sends ref mapper.key _) fun data => .bind_ofExcept
    fun statement h => .bind (query_sends (List.mem_singleton_self _) fun look => .insertion look h)
    fun answer => .bind (reading_sends _) fun key => .ite ?_ hend
  exact .bind (.ofExcept _) fun _ => .bind (setAttribute_sends ref _ _) fun _ => hend

theorem update_sends (ref : EntityRef) : Sends [.change] (update ref) :=
  .bind (sessionOf_sends ref) fun _ => .bind (reading_sends _) fun _ => .bind .get fun _ =>
    .bind (reading_sends _) fun _ => .bind_ofExcept fun _ h =>
    .bind (query_sends (List.mem_singleton_self _) fun look => .change look h) fun _ => .ofExcept _

theorem delete_sends (ref : EntityRef) : Sends [.removal] (delete ref) :=
  .bind (sessionOf_sends ref) fun _ => .bind (reading_sends _) fun _ => .bind (reading_sends _)
    fun _ => .bind_ofExcept fun _ h =>
    .bind (query_sends (List.mem_singleton_self _) fun look => .removal look h) fun _ =>
    .bind (.ofExcept _) fun _ => .ite (.bind (setState_sends ref _) fun _ => .pure _) (.pure _)

theorem create_sends (session : String) (model : Nat) (properties : Dictionary Value) :
    Sends [.insertion] (create session model properties) :=
  .bind (make_sends model properties) fun ref => .bind (bindTo_sends session ref) fun _ =>
    .bind (save_sends ref) fun _ => .pure ref

/-! ## 3. Finding -/

theorem select_sends {s : Sql.Select} {f : Sql.Fragment}
    (hfilter : ∀ part, s.filter = some part → ∃ v, Where.compile v = .ok part)
    (h : s.statement = .ok f) (session : String) (model : Nat) (excluded : List String) :
    Sends [.selection] (select session model excluded f) :=
  .bind (query_sends (List.mem_singleton_self _) fun look => .selection look hfilter h) fun _ =>
    .bind (.ofExcept _) fun _ => .mapM fun row => hydrate_sends model session excluded row

theorem fetch_sends (session : String) (model : Nat) : Sends [.selection] (fetch session model) :=
  .bind (reading_sends _) fun _ => .bind_ofExcept fun _ h =>
    select_sends (fun _ hpart => by cases hpart) h session model []

theorem selection_select {m : Mapper} {o : FindOptions} {limit offset : Option Int}
    {f : Sql.Fragment} (h : selection m o limit offset = .ok f) (session : String) (model : Nat)
    (excluded : List String) : Sends [.selection] (select session model excluded f) := by
  obtain ⟨part, hpart, h⟩ := bind_eq_ok.mp h
  refine select_sends (fun other hother => ⟨o.valueOf .filter, ?_⟩) h session model excluded
  cases hother
  exact orFault_eq_ok.mp hpart

theorem findAll_sends (session : String) (model : Nat) (o : FindOptions) :
    Sends [.selection] (findAll session model o) :=
  .bind (reading_sends _) fun _ => .bind_ofExcept fun _ h => selection_select h session model _

theorem findOne_sends (session : String) (model : Nat) (o : FindOptions) :
    Sends [.selection] (findOne session model o) := by
  have hfind (mapper : Mapper) : Sends [.selection] (do
      let statement ← Action.ofExcept (selection mapper o (some 1) none)
      return (← select session model o.exclude statement).head?) :=
    .bind_ofExcept fun _ h => .bind (selection_select h session model _) fun _ => .pure _
  exact .bind (reading_sends _) fun mapper => .ite
    (.bind .get fun _ => .bind (.throw _) fun _ => hfind mapper) (hfind mapper)

theorem findById_sends (session : String) (model : Nat) (key : Value) :
    Sends [.selection] (findById session model key) := by
  have hfind (mapper : Mapper) : Sends [.selection] (do
      findOne session model (← Action.ofExcept (keyOptions mapper key))) :=
    .bind (.ofExcept _) fun _ => findOne_sends session model _
  exact .bind (reading_sends _) fun mapper => .ite
    (.bind .get fun _ => .bind (.throw _) fun _ => hfind mapper) (hfind mapper)

theorem findStrictly_sends (session : String) (model : Nat) (o : FindOptions) :
    Sends [.selection] (findStrictly session model o) := by
  refine .bind (reading_sends _) fun _ => .bind (findOne_sends session model _) fun found => ?_
  cases found with
  | some ref => exact .pure ref
  | none => exact .bind .get fun _ => .throw _

theorem findOneAndDelete_sends (session : String) (model : Nat) (o : FindOptions) :
    Sends [.selection, .removal] (findOneAndDelete session model o) :=
  .bind ((findStrictly_sends session model o).of_subset (by simp)) fun ref =>
    (delete_sends ref).of_subset (by simp)

theorem findOneAndUpdate_sends (session : String) (model : Nat) (o : FindOptions) (data : Value) :
    Sends [.selection, .change] (findOneAndUpdate session model o data) :=
  .bind ((findStrictly_sends session model o).of_subset (by simp)) fun ref =>
    .bind (setProperties_sends ref data) fun _ =>
    .bind ((update_sends ref).of_subset (by simp)) fun _ => .pure ref

theorem findByIdAndDelete_sends (session : String) (model : Nat) (key : Value) :
    Sends [.selection, .removal] (findByIdAndDelete session model key) := by
  refine .bind (reading_sends _) fun _ =>
    .bind ((findById_sends session model key).of_subset (by simp)) fun found => ?_
  cases found with
  | some ref => exact (delete_sends ref).of_subset (by simp)
  | none => exact .bind .get fun _ => .throw _

theorem findByIdAndUpdate_sends (session : String) (model : Nat) (key data : Value) :
    Sends [.selection, .change] (findByIdAndUpdate session model key data) := by
  refine .bind ((findById_sends session model key).of_subset (by simp)) fun found => ?_
  cases found with
  | none => exact .pure _
  | some ref =>
    exact .bind (setProperties_sends ref data) fun _ =>
      .bind ((update_sends ref).of_subset (by simp)) fun _ => .pure _

theorem findOrCreate_sends (session : String) (model : Nat) (o : FindOptions) (defaults : Value) :
    Sends [.selection, .insertion] (findOrCreate session model o defaults) := by
  refine .bind ((findOne_sends session model o).of_subset (by simp)) fun found => ?_
  cases found with
  | some ref => exact .pure _
  | none =>
    exact .bind (reading_sends _) fun properties =>
      .bind ((create_sends session model properties).of_subset (by simp)) fun _ =>
      .bind (debug_sends _ _) fun _ => .pure _

/-! ## 4. Loading and linking -/

theorem ownerKey_sends (ref : EntityRef) (a : Association) : Sends kinds (ownerKey ref a) :=
  .bind (reading_sends _) fun _ => .guarded fun _ => .pure _

theorem ownedFilter_sends (ref : EntityRef) (a : Association) : Sends kinds (ownedFilter ref a) :=
  .bind (ownerKey_sends ref a) fun _ => reading_sends _

theorem findRelated_sends (session : String) (model : Nat) (filter : Value) (shape : Shape) :
    Sends [.selection] (findRelated session model filter shape) :=
  .bind (.ofExcept _) fun _ => .bind (findOne_sends session model _) fun _ => .pure _

theorem joined_sends (session : String) (target : Nat) (otherKey key : Value) (shape : Shape)
    (row : EntityRef) : Sends [.selection] (joined session target otherKey key shape row) :=
  .bind (reading_sends _) fun _ => .ite (.pure _)
    (.bind (reading_sends _) fun _ => .bind (.ofExcept _) fun _ => findOne_sends session target _)

theorem loadThrough_sends (session : String) (ref : EntityRef) (a : Association)
    (otherKey key : Value) (shape : Shape) :
    Sends [.selection] (loadThrough session ref a otherKey key shape) :=
  .bind (.ofExcept _) fun through => .bind (ownedFilter_sends ref a) fun _ =>
    .bind (.ofExcept _) fun _ => .bind (findAll_sends session through _) fun _ =>
    .bind (.ofExcept _) fun target =>
    .bind (.mapM fun row => joined_sends session target otherKey key shape row) fun _ =>
    .bind (debug_sends _ _) fun _ => .pure _

theorem load_sends (session : String) (ref : EntityRef) (a : Association) (shape : Shape) :
    Sends [.selection] (load session ref a shape) := by
  rw [load]
  split
  · exact .bind (ownedFilter_sends ref a) fun _ => .bind (.ofExcept _) fun model =>
      findRelated_sends session model _ shape
  · exact .bind (ownedFilter_sends ref a) fun _ => .bind (.ofExcept _) fun model =>
      .bind (.ofExcept _) fun _ => .bind (findAll_sends session model _) fun _ => .pure _
  · exact .bind (reading_sends _) fun _ => .ite (.pure _)
      (.bind (.ofExcept _) fun model => .bind (reading_sends _) fun _ =>
        findRelated_sends session model _ shape)
  · exact loadThrough_sends session ref a _ _ shape

theorem associationOfEntity_sends (ref : EntityRef) (name : Value) :
    Sends kinds (associationOfEntity ref name) :=
  .bind .get fun _ => associationOf_sends _ name

theorem populate_sends (ref : EntityRef) (relation : Value) (shape : Shape) :
    Sends [.selection] (populate ref relation shape) :=
  .bind (sessionOf_sends ref) fun session => .bind (associationOfEntity_sends ref relation) fun a =>
    .bind (load_sends session ref a shape) fun _ => holdAttribute_sends ref relation _

theorem setForeign_sends (ref : EntityRef) (foreignKey value : Value) :
    Sends kinds (setForeign ref foreignKey value) := by
  rw [setForeign]
  split
  · exact setAttribute_sends ref _ value
  · exact .throw _

theorem holdLinked_sends (ref : EntityRef) (a : Association) (relation : Value)
    (target : EntityRef) : Sends kinds (holdLinked ref a relation target) := by
  intro w
  rw [holdLinked, Action.runOn_bind_ok (Action.runOn_get w)]
  dsimp only
  split
  · exact .quiet rfl fun hw => ⟨Shelf.append_solid hw.solid _ _, hw.numbered⟩
  · exact holdAttribute_sends ref relation _ w
  · exact holdAttribute_sends ref relation _ w

theorem attach_sends (ref : EntityRef) (target relation : Value) :
    Sends [.insertion, .change] (attach ref target relation) := by
  refine .bind (sessionOf_sends ref) fun session =>
    .bind (associationOfEntity_sends ref relation) fun a => .guarded fun _ =>
    .bind (reading_sends _) fun other => .bind (ownerKey_sends ref a) fun key =>
    .bind (setForeign_sends other a.foreignKey key) fun _ => .bind .get fun _ => ?_
  have hwrite : Sends [.insertion, .change] (do
      if (← reading (·.keyValue other)).isNull then discard (save other)
      else discard (update other)
      holdLinked ref a relation other) :=
    .bind (reading_sends _) fun _ => .ite
      (.bind (.discard ((save_sends other).of_subset (by simp))) fun _ =>
        holdLinked_sends ref a relation other)
      (.bind (.discard ((update_sends other).of_subset (by simp))) fun _ =>
        holdLinked_sends ref a relation other)
  exact .ite (.bind (bindTo_sends session other) fun _ => hwrite) hwrite

/-! ## 5. Tables -/

theorem createTable_sends (dropFirst : Bool) (model : Nat) :
    Sends [.definition] (createTable dropFirst model) := by
  have hcreate (mapper : Mapper) : Sends [.definition] (do
      let statement ← reading fun w => orFault (tableDefinition w.registry mapper)
      discard (query ⟨statement, []⟩)
      debug "mappify.generator" fun w =>
        (w.display mapper.tableName).map ("Created table " ++ ·)) := by
    refine .reading_bind fun _ _ h => .bind (.discard ?_) fun _ => debug_sends _ _
    exact query_sends (List.mem_singleton_self _) fun look => .creation (orFault_eq_ok.mp h)
  refine .bind (reading_sends _) fun mapper => .ite ?_ (hcreate mapper)
  refine .bind_ofExcept fun name h => .bind (.discard ?_) fun _ => hcreate mapper
  exact query_sends (List.mem_singleton_self _) fun look => .drop (orFault_eq_ok.mp h)

theorem createTables_sends (dropFirst : Bool) (models : List Nat) :
    Sends [.definition] (createTables dropFirst models) :=
  .forM fun model => createTable_sends dropFirst model

end RowMapper.World
