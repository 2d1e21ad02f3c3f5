import RowMapper.Proofs.Entity.Write
import RowMapper.Proofs.World.Term

/-!
# When operations on entities refuse

The finders, the writes of one entity, and loading and linking through most associations check all
of their input before they send anything.  The operations that find a row and then write it check
the write after the selection, and refuse then what cannot be written: a row without a key, a change
of nothing, or a name that is not safe.  Loading through a joining table checks the lookups of the
related rows only after the rows of that table were selected.
-/
namespace RowMapper

/-! ## 1. Refused statements -/

/-- A name is refused. -/
def NameRefused (fault : Fault) : Prop := ∃ name, fault = .rejected (.unsafeIdentifier name)

/-- The change of a row is refused: it has no key, nothing is changed, or a name is refused. -/
inductive ChangeRefused : Fault → Prop
  | withoutKey : ChangeRefused (.rejected .updateWithoutKey)
  | nothing (table : Value) : ChangeRefused (.rejected (.nothingToUpdate table))
  | name {fault : Fault} (h : NameRefused fault) : ChangeRefused fault

/-- The removal of a row is refused: it has no key, or a name is refused. -/
inductive RemovalRefused : Fault → Prop
  | withoutKey : RemovalRefused (.rejected .deleteWithoutKey)
  | name {fault : Fault} (h : NameRefused fault) : RemovalRefused fault

namespace Sql

theorem quoteIdentifier_refuses (v : Value) :
    RefusesOnly NameRefused (orFault (quoteIdentifier v)) := by
  unfold quoteIdentifier safeName
  dsimp only
  split
  · exact .ok _
  · exact .error fun _ => ⟨v, rfl⟩

theorem quoteAll_refuses (names : List Value) : RefusesOnly NameRefused (quoteAll names) :=
  .mapM quoteIdentifier_refuses

theorem dataEntries_unrefused (data : Value) : Unrefused (dataEntries data) := by
  unfold dataEntries
  split
  · exact .ok _
  · exact .failure rfl

theorem insertRow_refuses (table data : Value) :
    RefusesOnly NameRefused (insertRow table data) := by
  refine .bind (quoteIdentifier_refuses table) fun quoted => ?_
  dsimp only
  split
  · exact .ok _
  · exact .bind ((dataEntries_unrefused data).mono fun _ h => h.elim) fun entries =>
      .bind (quoteAll_refuses _) fun _ => .ok _

theorem updateRow_refuses (table data keyValue keyColumn : Value) :
    RefusesOnly ChangeRefused (updateRow table data keyValue keyColumn) := by
  have hname (v : Value) : RefusesOnly ChangeRefused (orFault (quoteIdentifier v)) :=
    (quoteIdentifier_refuses v).mono fun _ h => .name h
  have hnames (names : List Value) : RefusesOnly ChangeRefused (quoteAll names) :=
    (quoteAll_refuses names).mono fun _ h => .name h
  unfold updateRow
  refine .guarded (fun _ => .withoutKey) fun _ => .guarded (fun _ => .nothing table) fun _ => ?_
  exact .bind (hname table) fun _ => .bind ((dataEntries_unrefused data).mono fun _ h => h.elim)
    fun _ => .bind (hnames _) fun _ => .bind (hname keyColumn) fun _ => .ok _

theorem deleteRow_refuses (table keyValue keyColumn : Value) :
    RefusesOnly RemovalRefused (deleteRow table keyValue keyColumn) := by
  have hname (v : Value) : RefusesOnly RemovalRefused (orFault (quoteIdentifier v)) :=
    (quoteIdentifier_refuses v).mono fun _ h => .name h
  unfold deleteRow
  exact .guarded (fun _ => .withoutKey) fun _ => .bind (hname table) fun _ =>
    .bind (hname keyColumn) fun _ => .ok _

end Sql

namespace World

open Model (Association Mapper)

theorem rowsOf_unrefused (answer : Answer) : Unrefused (rowsOf answer) := by
  cases answer with
  | rows rows => exact .ok rows
  | done insertId affectedRows => exact .failure rfl

theorem insertedKey_unrefused (answer : Answer) : Unrefused (insertedKey answer) := by
  cases answer with
  | rows rows => exact .failure rfl
  | done insertId affectedRows => exact .ok insertId

theorem isPositive_unrefused (count : Value) : Unrefused (isPositive count) := by
  unfold isPositive
  split
  · exact .ok _
  · exact .ok _
  · split <;> exact .ok _
  · exact .failure rfl

theorem affected_unrefused (answer : Answer) : Unrefused (affected answer) := by
  cases answer with
  | rows rows => exact .failure rfl
  | done insertId affectedRows => exact isPositive_unrefused affectedRows

/-! ## 2. What comes before and after a statement -/

theorem make_settled (model : Nat) (properties : Dictionary Value) :
    Settled (make model properties) :=
  .bind .get fun _ => .bind (.of_quiet (addEntity_sends _) fun _ => .ok _) fun ref =>
    .bind (setEntries_settled ref _) fun _ => .pure ref

theorem hydrate_settled (model : Nat) (session : String) (excluded : List String) (row : Row) :
    Settled (hydrate model session excluded row) :=
  .bind (make_settled model _) fun ref => .bind (updateEntity_settled ref _) fun _ => .pure ref

theorem setProperties_settled (ref : EntityRef) (properties : Value) :
    Settled (setProperties ref properties) := by
  refine .bind .get fun w => ?_
  split
  · exact setEntries_settled ref _
  · exact .throw rfl

theorem sessionOf_settled (ref : EntityRef) : Settled (sessionOf ref) := by
  refine .bind .get fun w => ?_
  split
  · exact .pure _
  · exact .throw rfl

theorem instantiate_settled (model : Nat) (properties : Dictionary Value) :
    Settled (instantiate model properties) :=
  .bind .get fun _ => .ite (.bind (make_settled model properties) fun _ => .pure _)
    (.ite (.bind (.throw rfl) fun _ => .pure _) (.pure _))

theorem defaultValue_settled (absent : Model.Default) : Settled (defaultValue absent) := by
  rw [defaultValue.eq_def]
  split
  · exact instantiate_settled _ _
  · exact .pure _
  · exact .reading fun w => Term.eval_unrefused (scope_plain w) _

theorem insertData_settled (ref : EntityRef) (key : String)
    (columns : List (String × Model.Column)) : Settled (insertData ref key columns) := by
  induction columns with
  | nil => exact .pure _
  | cons entry rest ih =>
    refine .bind .get fun w => ?_
    split
    · exact .bind ih fun _ => .pure _
    · exact .bind (defaultValue_settled _) fun _ => .bind (holdAttribute_settled ref _ _) fun _ =>
        .bind ih fun _ => .pure _
    · exact ih

theorem bindTo_settled (session : String) (ref : EntityRef) : Settled (bindTo session ref) :=
  .bind .get fun _ => .ite (.bind (debug_settled _ _) fun _ => updateEntity_settled ref _)
    (updateEntity_settled ref _)

/-! ## 3. Writing one entity -/

variable {w : World}

theorem EarlyAs.early {α : Type} {P : Fault → Prop} {action : Action World α}
    (h : EarlyAs P w action) : Early w action := h.mono fun _ _ hlate => hlate.1

theorem save_earlyAs (ref : EntityRef) (w : World) : EarlyAs NameRefused w (save ref) := by
  have hend : Settled (do
      setState ref .persistent
      reading (·.keyValue ref)) :=
    .bind (setState_settled ref _) fun _ => .reading fun w => keyValue_unrefused w ref
  refine .after (sessionOf_sends ref) (sessionOf_settled ref) fun _ _ =>
    .after (reading_sends _) (.reading fun w => mapperOf_unrefused w ref) fun mapper _ =>
    .after .get .get fun _ _ =>
    .after (insertData_sends ref mapper.key _) (insertData_settled ref mapper.key _) fun data _ =>
    .quiet_bind (.ofExcept _) (.of_ofExcept (Sql.insertRow_refuses _ _) _) fun statement u _ => ?_
  refine .bind_settled ((query_settled statement).refuses u) fun answer =>
    .bind (.reading fun w => keyValue_unrefused w ref) fun key => .ite ?_ hend
  exact .bind (.ofExcept (insertedKey_unrefused answer)) fun _ =>
    .bind (setAttribute_settled ref _ _) fun _ => hend

theorem update_earlyAs (ref : EntityRef) (w : World) : EarlyAs ChangeRefused w (update ref) :=
  .after (sessionOf_sends ref) (sessionOf_settled ref) fun _ _ =>
    .after (reading_sends _) (.reading fun w => mapperOf_unrefused w ref) fun _ _ =>
    .after .get .get fun _ _ =>
    .after (reading_sends _) (.reading fun w => keyValue_unrefused w ref) fun _ _ =>
    .quiet_bind (.ofExcept _) (.of_ofExcept (Sql.updateRow_refuses _ _ _ _) _) fun statement u _ =>
    .bind_settled ((query_settled statement).refuses u) fun answer =>
      .ofExcept (affected_unrefused answer)

theorem delete_earlyAs (ref : EntityRef) (w : World) : EarlyAs RemovalRefused w (delete ref) :=
  .after (sessionOf_sends ref) (sessionOf_settled ref) fun _ _ =>
    .after (reading_sends _) (.reading fun w => mapperOf_unrefused w ref) fun _ _ =>
    .after (reading_sends _) (.reading fun w => keyValue_unrefused w ref) fun _ _ =>
    .quiet_bind (.ofExcept _) (.of_ofExcept (Sql.deleteRow_refuses _ _ _) _) fun statement u _ =>
    .bind_settled ((query_settled statement).refuses u) fun answer =>
      .bind (.ofExcept (affected_unrefused answer)) fun _ =>
        .ite (.bind (setState_settled ref _) fun _ => .pure _) (.pure _)

theorem create_earlyAs (session : String) (model : Nat) (properties : Dictionary Value)
    (w : World) : EarlyAs NameRefused w (create session model properties) :=
  .after (make_sends model properties) (make_settled model properties) fun ref _ =>
    .after (bindTo_sends session ref) (bindTo_settled session ref) fun _ u =>
    .bind_settled (save_earlyAs ref u) fun _ => .pure ref

/-! ## 4. Finding -/

theorem select_settled (session : String) (model : Nat) (excluded : List String)
    (f : Sql.Fragment) : Settled (select session model excluded f) :=
  .bind (query_settled f) fun answer => .bind (.ofExcept (rowsOf_unrefused answer)) fun _ =>
    .mapM fun row => hydrate_settled model session excluded row

theorem fetch_early (session : String) (model : Nat) (w : World) :
    Early w (fetch session model) :=
  .after_quiet (reading_sends _) fun _ _ => .after_quiet (.ofExcept _) fun f u =>
    (select_settled session model [] f).refuses u

theorem findAll_early (session : String) (model : Nat) (o : FindOptions) (w : World) :
    Early w (findAll session model o) :=
  .after_quiet (reading_sends _) fun _ _ => .after_quiet (.ofExcept _) fun f u =>
    (select_settled session model o.exclude f).refuses u

/-- What a search for the first row refuses. -/
inductive SearchRefused (o : FindOptions) : Fault → Prop
  | empty (model : String) (h : o.filter.isEmpty = true) :
      SearchRefused o (.rejected (.emptyWhere model))
  | selection {m : Mapper} {fault : Fault} (h : selection m o (some 1) none = .error fault) :
      SearchRefused o fault

theorem findOne_earlyAs (session : String) (model : Nat) (o : FindOptions) (w : World) :
    EarlyAs (SearchRefused o) w (findOne session model o) := by
  have hfind (mapper : Mapper) (w : World) : EarlyAs (SearchRefused o) w (do
      let statement ← Action.ofExcept (selection mapper o (some 1) none)
      return (← select session model o.exclude statement).head?) :=
    .quiet_bind (.ofExcept _) (.of_ofExcept (fun _ h _ => .selection h) w) fun f u _ =>
      ((select_settled session model o.exclude f).bind fun _ => .pure _).refuses u
  refine .after (reading_sends _) (.reading fun w => mapper_unrefused w model) fun mapper u => ?_
  split
  · rename_i hempty
    exact .after .get .get fun v u => .quiet_bind (.throw _)
      (.of_throw (.empty (v.modelName model) hempty) u) fun _ u _ => hfind mapper u
  · exact hfind mapper u

theorem findOne_early (session : String) (model : Nat) (o : FindOptions) (w : World) :
    Early w (findOne session model o) := (findOne_earlyAs session model o w).early

theorem findById_early (session : String) (model : Nat) (key : Value) (w : World) :
    Early w (findById session model key) := by
  have hfind (mapper : Mapper) (w : World) : Early w (do
      findOne session model (← Action.ofExcept (keyOptions mapper key))) :=
    .after_quiet (.ofExcept _) fun o u => findOne_early session model o u
  exact .after_quiet (reading_sends _) fun mapper u => .ite
    (.after_quiet .get fun _ _ => .after_quiet (.throw _) fun _ u => hfind mapper u)
    (hfind mapper u)

theorem findStrictly_early (session : String) (model : Nat) (o : FindOptions) (w : World) :
    Early w (findStrictly session model o) :=
  .after_quiet (reading_sends _) fun mapper u =>
    .bind_settled (findOne_early session model (withKey mapper o) u) fun found => by
      cases found with
      | some ref => exact .pure ref
      | none => exact .bind .get fun _ => .throw rfl

/-! ## 5. Finding to write -/

theorem findOneAndDelete_late (session : String) (model : Nat) (o : FindOptions) (w : World) :
    Late RemovalRefused w (findOneAndDelete session model o) :=
  .bind_amid (findStrictly_early session model o w) (findStrictly_sends session model o)
    fun ref u => (delete_earlyAs ref u).amid

theorem findOneAndUpdate_late (session : String) (model : Nat) (o : FindOptions) (data : Value)
    (w : World) : Late ChangeRefused w (findOneAndUpdate session model o data) := by
  rw [findOneAndUpdate_eq]
  refine .bind_amid ?_ (findForUpdate_sends session model o data) fun ref u =>
    .bind_settled (update_earlyAs ref u).amid fun _ => .pure ref
  exact .bind_settled (findStrictly_early session model o w) fun ref =>
    .bind (setProperties_settled ref data) fun _ => .pure ref

theorem findByIdAndDelete_late (session : String) (model : Nat) (key : Value) (w : World) :
    Late RemovalRefused w (findByIdAndDelete session model key) := by
  rw [findByIdAndDelete_eq]
  refine .bind_amid ?_ (findByIdForDelete_sends session model key) fun ref u =>
    (delete_earlyAs ref u).amid
  refine .after_quiet (reading_sends _) fun _ u =>
    .bind_settled (findById_early session model key u) fun found => ?_
  cases found with
  | some ref => exact .pure ref
  | none => exact .bind .get fun _ => .throw rfl

theorem findByIdAndUpdate_late (session : String) (model : Nat) (key data : Value) (w : World) :
    Late ChangeRefused w (findByIdAndUpdate session model key data) := by
  rw [findByIdAndUpdate_eq]
  refine .bind_amid ?_ (findByIdForUpdate_sends session model key data) fun found u => ?_
  · refine .bind_settled (findById_early session model key w) fun found => ?_
    cases found with
    | none => exact .pure _
    | some ref => exact .bind (setProperties_settled ref data) fun _ => .pure _
  · cases found with
    | none => exact (Settled.pure _).refuses u
    | some ref => exact .bind_settled (update_earlyAs ref u).amid fun _ => .pure _

theorem pairs_unrefused (index : Nat) (items : List Value) : Unrefused (pairs index items) := by
  induction items generalizing index with
  | nil => exact .ok _
  | cons item rest ih =>
    refine .bind (elements_unrefused item) fun parts => ?_
    split
    · split
      · exact .bind (ih _) fun _ => .ok _
      · exact .failure rfl
    · exact .failure rfl

theorem newProperties_unrefused (w : World) (o : FindOptions) (defaults : Value) :
    Unrefused (newProperties w o defaults) := by
  have hdefaults : Unrefused (defaultEntries w defaults) := by
    unfold defaultEntries
    dsimp only
    split
    · split
      · exact .ok _
      · exact .bind (elements_unrefused _) fun _ => pairs_unrefused 0 _
    · exact .ok _
  refine .bind hdefaults fun entries => ?_
  split
  · exact .ok _
  · exact .failure rfl

theorem findOrCreate_late (session : String) (model : Nat) (o : FindOptions) (defaults : Value)
    (w : World) : Late NameRefused w (findOrCreate session model o defaults) := by
  refine .bind_amid (findOne_early session model o w) (findOne_sends session model o)
    fun found u => ?_
  cases found with
  | some ref => exact (Settled.pure _).refuses u
  | none =>
    exact .after (reading_sends _) (.reading fun w => newProperties_unrefused w o defaults)
      fun properties u => .bind_settled (create_earlyAs session model properties u).amid fun _ =>
      .bind (debug_settled _ _) fun _ => .pure _

/-! ## 6. Loading and linking -/

theorem findRelated_early (session : String) (model : Nat) (filter : Value) (shape : Shape)
    (w : World) : Early w (findRelated session model filter shape) :=
  .after_quiet (.ofExcept _) fun o u =>
    .bind_settled (findOne_early session model o u) fun _ => .pure _

/-- The related rows are found through a joining table. -/
def Through (a : Association) : Prop :=
  ∃ through otherKey key, a.kind = .belongsToMany through otherKey key

/-- The lookups of the rows that a joining table relates are refused. -/
inductive LookupRefused (shape : Shape) : Fault → Prop
  | options {filter : Value} {fault : Fault} (h : relatedOptions filter shape = .error fault) :
      LookupRefused shape fault
  | search {filter : Value} {o : FindOptions} {fault : Fault}
      (ho : relatedOptions filter shape = .ok o) (h : SearchRefused o fault) :
      LookupRefused shape fault

theorem foreignValue_unrefused (w : World) (ref : EntityRef) (name : Value) :
    Unrefused (foreignValue w ref name) := by
  unfold foreignValue
  split
  · split <;> exact .ok _
  · exact .failure rfl

theorem pinning_unrefused (column value : Value) : Unrefused (pinning column value) := by
  unfold pinning
  split
  · exact .ok _
  · exact .failure rfl

theorem resolvedModel_unrefused (resolved : Option ModelRef) :
    Unrefused (resolvedModel resolved) := by
  cases resolved with
  | some ref => exact .ok _
  | none => exact .failure rfl

theorem joined_earlyAs (session : String) (target : Nat) (otherKey key : Value) (shape : Shape)
    (row : EntityRef) (w : World) :
    EarlyAs (LookupRefused shape) w (joined session target otherKey key shape row) := by
  refine .after (reading_sends _) (.reading fun w => foreignValue_unrefused w row otherKey)
    fun other u => .ite ((Settled.pure _).refuses u) ?_
  refine .after (reading_sends _) (.reading fun w => pinning_unrefused key _) fun filter u =>
    .quiet_bind (.ofExcept _) (.of_ofExcept (fun _ h _ => .options h) u) fun o v hrun => ?_
  have ho : relatedOptions filter shape = .ok o := by
    rw [Action.runOn_ofExcept] at hrun
    exact (Prod.mk.inj hrun).1
  exact (findOne_earlyAs session target o v).mono fun _ _ hlate => ⟨hlate.1, .search ho hlate.2⟩

/-- The joining table is read with options of its own, and only then come the lookups. -/
theorem loadThrough_late (session : String) (ref : EntityRef) (a : Association)
    (otherKey key : Value) (shape : Shape) (w : World) :
    Late (LookupRefused shape) w (loadThrough session ref a otherKey key shape) :=
  .late_after_quiet (.ofExcept _) fun through _ =>
    .late_after_quiet (ownedFilter_sends ref a) fun _ _ =>
    .late_after_quiet (.ofExcept _) fun o u =>
    .bind_amid (findAll_early session through o u) (findAll_sends session through o) fun _ _ =>
    .after (.ofExcept _) (.ofExcept (resolvedModel_unrefused _)) fun target u =>
    .bind_settled (.amid_mapM (fun row => joined_sends session target otherKey key shape row)
      (fun row u => (joined_earlyAs session target otherKey key shape row u).amid) u) fun _ =>
    .bind (debug_settled _ _) fun _ => .pure _

theorem load_late (session : String) (ref : EntityRef) (a : Association) (shape : Shape)
    (w : World) :
    Late (fun fault => Through a ∧ LookupRefused shape fault) w (load session ref a shape) := by
  rw [load]
  split
  · exact .of_early <| .after_quiet (ownedFilter_sends ref a) fun _ _ =>
      .after_quiet (.ofExcept _) fun model u => findRelated_early session model _ shape u
  · exact .of_early <| .after_quiet (ownedFilter_sends ref a) fun _ _ =>
      .after_quiet (.ofExcept _) fun model _ => .after_quiet (.ofExcept _) fun o u =>
      .bind_settled (findAll_early session model o u) fun _ => .pure _
  · exact .of_early <| .after_quiet (reading_sends _) fun _ u =>
      .ite ((Settled.pure _).refuses u) (.after_quiet (.ofExcept _) fun model _ =>
        .after_quiet (reading_sends _) fun _ u => findRelated_early session model _ shape u)
  · rename_i through otherKey key hkind
    exact (loadThrough_late session ref a otherKey key shape w).late_mono fun _ h =>
      ⟨⟨through, otherKey, key, hkind⟩, h⟩

/-- A relation of an entity goes through a joining table, and the lookups of the related rows are
refused. -/
def RelationRefused (w : World) (ref : EntityRef) (relation : Value) (shape : Shape)
    (fault : Fault) : Prop :=
  ∃ a u, (associationOfEntity ref relation).runOn w = (.ok a, u) ∧ Through a ∧
    LookupRefused shape fault

theorem populate_late (ref : EntityRef) (relation : Value) (shape : Shape) (w : World) :
    Late (RelationRefused w ref relation shape) w (populate ref relation shape) := by
  have hsession : Sends [] (sessionOf ref) := sessionOf_sends ref
  have hassociation : Sends [] (associationOfEntity ref relation) :=
    associationOfEntity_sends ref relation
  refine .quiet_bind hsession (.of_early (.of_quiet hsession w)) fun session u hu => ?_
  have hkept := sessionOf_kept ref w
  rw [hu] at hkept
  subst hkept
  refine .quiet_bind hassociation (.of_early (.of_quiet hassociation _)) fun a v hv => ?_
  exact .bind_settled ((load_late session ref a shape v).late_mono fun _ h => ⟨a, v, hv, h⟩)
    fun _ => holdAttribute_settled ref relation _

theorem holdLinked_settled (ref : EntityRef) (a : Association) (relation : Value)
    (target : EntityRef) : Settled (holdLinked ref a relation target) := by
  refine .of_quiet (holdLinked_sends ref a relation target) fun w => ?_
  rw [holdLinked, Action.runOn_bind_ok (Action.runOn_get w)]
  dsimp only
  split <;> exact .ok _

theorem attach_early (ref : EntityRef) (target relation : Value) (w : World) :
    Early w (attach ref target relation) := by
  rw [attach_eq]
  refine .after_quiet (attachForWrite_sends ref target relation) fun linked _ => ?_
  obtain ⟨a, other⟩ := linked
  exact .after_quiet (reading_sends _) fun key u => .ite
    (.bind_settled (save_earlyAs other u).early.discard fun _ =>
      holdLinked_settled ref a relation other)
    (.bind_settled (update_earlyAs other u).early.discard fun _ =>
      holdLinked_settled ref a relation other)

end World
end RowMapper
