import RowMapper.Proofs.Entity.Call
import RowMapper.Proofs.Sql.Row

/-!
# Writing by key

A row is changed or removed only by the key that its entity holds.  `KeyedWrite u ref call` says
that a call is such a write, made for the entity `ref` in the world `u`: the statement names the
table of the mapper of the entity, its only condition is on the column of the key, and the last
parameter is the key, which is not null.  `update` and `delete` send nothing but one such write
(`update_wrote`, `delete_wrote`).

The operations that find an entity and then write it, and `attach`, come to the write along some
way; here each of them is cut into its way to the write and the rest.
-/
namespace RowMapper.World

open Model (Association Mapper)

/-! ## 1. One write -/

/-- A statement that changes or removes one row, by the key that an entity holds. -/
inductive KeyedWrite (u : World) (ref : EntityRef) : Call → Prop
  | change {mapper : Mapper} {key : Value} {table : String} {columns : List String}
      {values : List Value} (hmapper : u.mapperOf ref = .ok mapper)
      (hkey : u.keyValue ref = .ok key) (key_ne : (u.expand key).isNull = false)
      (htable : Sql.safeName mapper.tableName = .ok table)
      (safe : ∀ name ∈ table :: mapper.key :: columns, Sql.isSafeName name.toList = true)
      (columns_ne : columns ≠ []) (hlength : columns.length = values.length) :
      KeyedWrite u ref
        (.statement (Sql.changeText table columns mapper.key) (values ++ [u.expand key]))
  | removal {mapper : Mapper} {key : Value} {table : String} (hmapper : u.mapperOf ref = .ok mapper)
      (hkey : u.keyValue ref = .ok key) (key_ne : (u.expand key).isNull = false)
      (htable : Sql.safeName mapper.tableName = .ok table)
      (safe : ∀ name ∈ [table, mapper.key], Sql.isSafeName name.toList = true) :
      KeyedWrite u ref (.statement (Sql.removalText table mapper.key) [u.expand key])

/-- From one world to another nothing is sent, or one write by the key that an entity holds. -/
def Wrote (u : World) (ref : EntityRef) (w : World) : Prop :=
  w.trace = u.trace ∨ ∃ x, w.trace = u.trace ++ [x] ∧ KeyedWrite u ref x.call

theorem query_sent (f : Sql.Fragment) (w : World) :
    ((query f).runOn w).2.trace = w.trace ∨
    ∃ x : Exchange, ((query f).runOn w).2.trace = w.trace ++ [x] ∧
      x.call = .statement f.text (f.params.map w.expand) :=
  Engine.query_sent w.observer f.text (f.params.map w.expand) w.expectantEngine

/-- A statement is sent if its parameters can be printed. -/
theorem query_of_printed {f : Sql.Fragment} {w : World} {printed : String}
    (h : w.literal (.list (f.params.map w.expand)) = .ok printed) :
    ∃ x : Exchange, ((query f).runOn w).2.trace = w.trace ++ [x] ∧
      x.call = .statement f.text (f.params.map w.expand) :=
  Engine.query_of_printed (o := w.observer) h f.text w.expectantEngine

variable {α β : Type} {u : World} {ref : EntityRef}

theorem query_wrote {f : Sql.Fragment}
    (h : KeyedWrite u ref (.statement f.text (f.params.map u.expand))) :
    Wrote u ref ((query f).runOn u).2 :=
  (query_sent f u).imp_right fun ⟨x, hx, hcall⟩ => ⟨x, hx, hcall ▸ h⟩

/-- What sends nothing may follow. -/
theorem Wrote.bind {action : Action World α} {next : α → Action World β}
    (h : Wrote u ref (action.runOn u).2) (hnext : ∀ a, Sends [] (next a)) :
    Wrote u ref ((action >>= next).runOn u).2 := by
  rw [Action.runOn_bind]
  rcases hrun : action.runOn u with ⟨fault | a, w⟩ <;> rw [hrun] at h
  · exact h
  · have htrace := (hnext a w).trace_eq
    exact h.imp (htrace.trans ·) fun ⟨x, hx, hwrite⟩ => ⟨x, htrace.trans hx, hwrite⟩

theorem Wrote.discard {action : Action World α} (h : Wrote u ref (action.runOn u).2) :
    Wrote u ref ((Functor.discard action).runOn u).2 := by
  rw [Action.discard_eq]
  exact h.bind fun _ => .pure _

theorem sessionOf_kept (ref : EntityRef) (w : World) : ((sessionOf ref).runOn w).2 = w := by
  rw [sessionOf, Action.runOn_bind_ok (Action.runOn_get w)]
  cases (w.entityAt ref).session <;> rfl

/-- Changing the row of an entity is one write by its key at most. -/
theorem update_wrote (ref : EntityRef) (hu : u.Sound) : Wrote u ref ((update ref).runOn u).2 := by
  refine Action.after_bind_kept (sessionOf_kept ref u) (.inl rfl) fun _ _ =>
    Action.after_bind_kept rfl (.inl rfl) fun mapper hmapper =>
    Action.after_bind_kept rfl (.inl rfl) fun w hw =>
    Action.after_bind_kept rfl (.inl rfl) fun key hkey => ?_
  cases hw
  refine Action.after_bind_kept (congrArg Prod.snd (Action.runOn_ofExcept _ u)) (.inl rfl)
    fun f hf => Wrote.bind (query_wrote ?_) fun _ => .ofExcept _
  rw [Action.runOn_ofExcept] at hf
  obtain ⟨table, columns, values, column, htable, hcolumn, key_ne, safe, columns_ne, hlength, rfl⟩ :=
    Sql.updateRow_eq_ok hf
  obtain ⟨-, -, rfl⟩ := Where.safeName_eq_ok.mp hcolumn
  rw [List.map_append]
  exact .change hmapper hkey ((Shelf.isNull_expand hu.solid key).trans key_ne) htable safe columns_ne
    (by simpa using hlength)

/-- Removing the row of an entity is one write by its key at most. -/
theorem delete_wrote (ref : EntityRef) (hu : u.Sound) : Wrote u ref ((delete ref).runOn u).2 := by
  refine Action.after_bind_kept (sessionOf_kept ref u) (.inl rfl) fun _ _ =>
    Action.after_bind_kept rfl (.inl rfl) fun mapper hmapper =>
    Action.after_bind_kept rfl (.inl rfl) fun key hkey =>
    Action.after_bind_kept (congrArg Prod.snd (Action.runOn_ofExcept _ u)) (.inl rfl)
      fun f hf => Wrote.bind (query_wrote ?_) fun _ => .bind (.ofExcept _) fun _ =>
        .ite (.bind (setState_sends ref _) fun _ => .pure _) (.pure _)
  rw [Action.runOn_ofExcept] at hf
  obtain ⟨table, column, htable, hcolumn, key_ne, safe, rfl⟩ := Sql.deleteRow_eq_ok hf
  obtain ⟨-, -, rfl⟩ := Where.safeName_eq_ok.mp hcolumn
  exact .removal hmapper hkey ((Shelf.isNull_expand hu.solid key).trans key_ne) htable safe

/-! ## 2. The way to a write -/

/-- Finds the row to change, and sets what is changed. -/
def findForUpdate (session : String) (model : Nat) (o : FindOptions) (data : Value) :
    Action World EntityRef := do
  let ref ← findStrictly session model o
  setProperties ref data
  return ref

/-- Finds the row with a key, if there is one, and sets what is changed. -/
def findByIdForUpdate (session : String) (model : Nat) (key data : Value) :
    Action World (Option EntityRef) := do
  match ← findById session model key with
  | none => return none
  | some ref =>
    setProperties ref data
    return some ref

/-- Finds the row with a key, which has to be there. -/
def findByIdForDelete (session : String) (model : Nat) (key : Value) : Action World EntityRef := do
  let mapper ← reading (·.mapper model)
  match ← findById session model key with
  | some ref => return ref
  | none => throw (.missing (.byId ((← get).modelName model) mapper.key key))

/-- Gives an entity the key of its owner and a session, so that it can be written. -/
def attachForWrite (ref : EntityRef) (target relation : Value) :
    Action World (Association × EntityRef) := do
  let session ← sessionOf ref
  let a ← associationOfEntity ref relation
  if !attachable a then throw (.association (.notAttachable relation a.kind.name))
  let other ← reading (attachedEntity · a relation target)
  setForeign other a.foreignKey (← ownerKey ref a)
  if ((← get).entityAt other).session.isNone then bindTo session other
  return (a, other)

theorem findForUpdate_sends (session : String) (model : Nat) (o : FindOptions) (data : Value) :
    Sends [.selection] (findForUpdate session model o data) :=
  .bind (findStrictly_sends session model o) fun ref => .bind (setProperties_sends ref data) fun _ =>
    .pure ref

theorem findByIdForUpdate_sends (session : String) (model : Nat) (key data : Value) :
    Sends [.selection] (findByIdForUpdate session model key data) := by
  refine .bind (findById_sends session model key) fun found => ?_
  cases found with
  | none => exact .pure _
  | some ref => exact .bind (setProperties_sends ref data) fun _ => .pure _

theorem findByIdForDelete_sends (session : String) (model : Nat) (key : Value) :
    Sends [.selection] (findByIdForDelete session model key) := by
  refine .bind (reading_sends _) fun _ => .bind (findById_sends session model key) fun found => ?_
  cases found with
  | some ref => exact .pure ref
  | none => exact .bind .get fun _ => .throw _

theorem attachForWrite_sends {kinds : List CallKind} (ref : EntityRef) (target relation : Value) :
    Sends kinds (attachForWrite ref target relation) :=
  .bind (sessionOf_sends ref) fun session =>
    .bind (associationOfEntity_sends ref relation) fun a => .guarded fun _ =>
    .bind (reading_sends _) fun other => .bind (ownerKey_sends ref a) fun key =>
    .bind (setForeign_sends other a.foreignKey key) fun _ => .bind .get fun _ =>
    .ite (.bind (bindTo_sends session other) fun _ => .pure _) (.pure _)

theorem findOneAndUpdate_eq (session : String) (model : Nat) (o : FindOptions) (data : Value) :
    findOneAndUpdate session model o data = (do
      let ref ← findForUpdate session model o data
      let _ ← update ref
      return ref) := by
  simp only [findOneAndUpdate, findForUpdate, bind_assoc, pure_bind]

theorem findByIdAndUpdate_eq (session : String) (model : Nat) (key data : Value) :
    findByIdAndUpdate session model key data = (do
      match ← findByIdForUpdate session model key data with
      | none => return none
      | some ref =>
        let _ ← update ref
        return some ref) := by
  rw [findByIdAndUpdate, findByIdForUpdate, bind_assoc]
  refine bind_congr fun found => ?_
  cases found <;> simp only [bind_assoc, pure_bind]

theorem findByIdAndDelete_eq (session : String) (model : Nat) (key : Value) :
    findByIdAndDelete session model key = findByIdForDelete session model key >>= delete := by
  rw [findByIdAndDelete, findByIdForDelete, bind_assoc]
  refine bind_congr fun mapper => ?_
  rw [bind_assoc]
  refine bind_congr fun found => ?_
  cases found <;> simp only [bind_assoc, pure_bind]
  rfl

theorem attach_eq (ref : EntityRef) (target relation : Value) :
    attach ref target relation = (do
      let (a, other) ← attachForWrite ref target relation
      if (← reading (·.keyValue other)).isNull then discard (save other)
      else discard (update other)
      holdLinked ref a relation other) := by
  have hite {α β : Type} (c : Prop) [Decidable c] (first other : Action World α)
      (next : α → Action World β) : (if c then first else other) >>= next =
        if c then first >>= next else other >>= next := by
    split <;> rfl
  simp only [attach, attachForWrite, bind_assoc, pure_bind, hite]

end RowMapper.World
