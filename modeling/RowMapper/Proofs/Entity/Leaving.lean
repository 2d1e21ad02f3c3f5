import RowMapper.Proofs.Entity.Attachment
import RowMapper.Proofs.Entity.Population

/-!
# What linking leaves alone

On its way to being written a linked entity has attributes set: the foreign key, columns that have
a default, and the key.  Everything else that is set on an entity stays, on the linked one and on
all others, however the attempt ends (`writeLinked_leaving`, `attachForWrite_leaving`).
-/
namespace RowMapper.World

open Model (Association Mapper)

variable {ref owner other : EntityRef} {w t u w' : World} {column : String}
  {spared : EntityRef → String → Prop} {α : Type}

/-! ## 1. Leaving alone -/

/-- From one world to another entities keep what is set on them under some names.  The classes have
the attributes and the keys that they had, entities stay of their class, and the shelf grows. -/
structure Leaving (spared : EntityRef → String → Prop) (w w' : World) : Prop where
  steady : Steady w w'
  shelf_prefix : w.shelf <+: w'.shelf
  entities_le : w.entities.length ≤ w'.entities.length
  model_eq : ∀ ref, ref.id < w.entities.length → (w'.entityAt ref).model = (w.entityAt ref).model
  retains : ∀ ref name, spared ref name → Retains ref name w w'

instance : IsPreorder World (Leaving spared) where
  refl w := ⟨refl_of Steady w, List.prefix_rfl, Nat.le_refl _, fun _ _ => rfl,
    fun ref name _ => refl_of (Retains ref name) w⟩
  trans _ _ _ h h' := ⟨trans_of Steady h.steady h'.steady, h.shelf_prefix.trans h'.shelf_prefix,
    Nat.le_trans h.entities_le h'.entities_le,
    fun ref hin => (h'.model_eq ref (Nat.lt_of_lt_of_le hin h.entities_le)).trans
      (h.model_eq ref hin),
    fun ref name hspared => trans_of (Retains ref name) (h.retains ref name hspared)
      (h'.retains ref name hspared)⟩

theorem Widens.leaving (h : Widens w w') : Leaving spared w w' where
  steady := h.toSteady
  shelf_prefix := h.shelf_prefix
  entities_le := h.entities_prefix.length_le
  model_eq _ hin := by rw [h.entityAt_eq hin]
  retains _ _ _ := retains_of_prefix h.entities_prefix

theorem leaving_of_widens {action : Action World α} (h : action.Obeys Widens) :
    action.Obeys (Leaving spared) := h.mono fun _ _ => Widens.leaving

theorem leaving_of_still {action : Action World α} (h : action.Obeys Still) :
    action.Obeys (Leaving spared) := leaving_of_widens (h.mono fun _ _ => Still.widens)

/-- What is set on an entity does not depend on how the entity is called. -/
theorem Retains.of_id_eq {name : String} (h : Retains other name w w') (hid : ref.id = other.id) :
    Retains ref name w w' := by
  have hsame (v : World) : v.entityAt ref = v.entityAt other := by rw [entityAt, hid, entityAt]
  rwa [Retains, hid, hsame, hsame]

/-- What is done to one entity spares what it leaves of that. -/
theorem leaving_of_alters {action : Action World α} (h : action.Obeys (Alters other))
    (hsame : ∀ ref name, spared ref name → ref.id = other.id →
      action.Obeys (Retains other name)) : action.Obeys (Leaving spared) := by
  intro w
  have halters : Alters other w _ := h w
  refine ⟨.of_registry halters.registry_eq, halters.aside.shelf_prefix, ?_, fun ref hin => ?_,
    fun ref name hspared => ?_⟩
  · obtain ⟨e, shelf, heq, -⟩ := halters
    simp [heq]
  · by_cases hid : ref.id = other.id
    · have hmodel := halters.model_eq (hid ▸ hin)
      simpa only [entityAt, hid] using hmodel
    · obtain ⟨e, shelf, heq, -⟩ := halters
      simp [heq, entityAt, List.getElem?_set_ne (Ne.symm hid)]
  · by_cases hid : ref.id = other.id
    · exact (hsame ref name hspared hid w).of_id_eq hid
    · exact retains_of_alters h (Ne.symm hid) w

/-! ## 2. Setting attributes -/

/-- A name of an entity is not among those under which it is to keep what is set. -/
def Avoids (spared : EntityRef → String → Prop) (other : EntityRef) (column : String) : Prop :=
  ∀ ref name, spared ref name → ref.id = other.id → name ≠ column

theorem holdAttribute_leaving (h : Avoids spared other column) (v : Value) :
    (holdAttribute other (.str column) v).Obeys (Leaving spared) :=
  leaving_of_alters (holdAttribute_alters _ v) fun ref name hspared hid =>
    have hne : (Value.str column).text? ≠ some name := fun heq =>
      h ref name hspared hid (Option.some.inj heq).symm
    holdAttribute_retains rfl hne v

theorem setAttribute_leaving (h : Avoids spared other column) (v : Value) :
    (setAttribute other column v).Obeys (Leaving spared) :=
  .bind .get fun _ => .guarded fun _ => holdAttribute_leaving h v

/-- What is not among the attributes of an entity may be changed. -/
theorem updateEntity_leaving {change : Entity → Entity} (hmodel : ∀ e, (change e).model = e.model)
    (hattributes : ∀ e, (change e).attributes = e.attributes) :
    (updateEntity other change).Obeys (Leaving spared) :=
  leaving_of_alters (updateEntity_alters hmodel) fun _ _ _ _ w hin => by
    refine ⟨((updateEntity_alters hmodel) w).inside hin, ?_⟩
    rw [updateEntity_entityAt, if_pos ⟨rfl, hin⟩, hattributes]

theorem insertData_leaving (key : String) {columns : List (String × Model.Column)}
    (h : ∀ column ∈ columns.map (·.1), Avoids spared other column) :
    (insertData other key columns).Obeys (Leaving spared) := by
  induction columns with
  | nil => exact .pure _
  | cons entry rest ih =>
    obtain ⟨hfirst, hrest⟩ := List.forall_mem_cons.mp h
    refine .bind .get fun _ => ?_
    split
    · exact .bind (ih hrest) fun _ => .pure _
    · exact .bind (leaving_of_widens ((defaultValue_adds _).mono fun _ _ h => h.grows.widens))
        fun _ => .bind (holdAttribute_leaving hfirst _) fun _ => .bind (ih hrest) fun _ => .pure _
    · exact ih hrest

/-! ## 3. Writing -/

/-- Inserting the row of an entity sets columns and the key. -/
theorem saveRow_leaving (h : ∀ m, w.mapperOf other = .ok m →
      ∀ column ∈ m.key :: m.columns.names, Avoids spared other column) :
    Leaving spared w ((saveRow other).runOn w).2 := by
  refine Action.after_bind_kept (sessionOf_kept other w) (refl_of (Leaving spared) w) fun _ _ => ?_
  refine Action.after_bind_kept rfl (refl_of (Leaving spared) w) fun m hm => ?_
  obtain ⟨hkey, hcolumns⟩ := List.forall_mem_cons.mp (h m hm)
  have hrest : (do
      let columns := (← get).registry.columnsOf m
      let data ← insertData other m.key columns
      let statement ← Action.ofExcept (Sql.insertRow m.tableName (.mapping (Entries.ofNamed data)))
      let answer ← query statement
      if (← reading (·.keyValue other)).isNull then
        setAttribute other m.key (← Action.ofExcept (insertedKey answer)) :
      Action World Unit).Obeys (Leaving spared) :=
    .bind .get fun v => .bind
      (insertData_leaving m.key (columnsOf_names v.registry m ▸ hcolumns)) fun _ =>
      .bind (.ofExcept _) fun f => .bind (leaving_of_still (query_still f)) fun _ =>
      .bind (leaving_of_still (reading_still _)) fun _ =>
      .ite (.bind (.ofExcept _) fun _ => setAttribute_leaving hkey _) (.pure _)
  exact hrest w

/-- Writing a linked entity sets columns and the key. -/
theorem writeLinked_leaving (h : ∀ m, w.mapperOf other = .ok m →
      ∀ column ∈ m.key :: m.columns.names, Avoids spared other column) :
    Leaving spared w ((writeLinked other).runOn w).2 := by
  refine Action.after_bind_kept rfl (refl_of (Leaving spared) w) fun key _ => ?_
  split <;> rw [Action.discard_eq, Action.after_bind_pure]
  · rw [save_eq]
    refine trans_of (Leaving spared) (saveRow_leaving h) (Action.Obeys.after_bind (fun _ => ?_) _ w)
    exact .bind (updateEntity_leaving (fun _ => rfl) fun _ => rfl) fun _ =>
      leaving_of_still (reading_still _)
  · exact leaving_of_still (update_still other) w

/-- Making an entity ready to be written sets the foreign key. -/
theorem attachForWrite_leaving {target relation : Value}
    (h : ∀ a t, (associationOfEntity owner relation).runOn w = (.ok a, t) →
      ∀ other, target = .entity other → ∀ name, a.foreignKey.text? = some name →
        Avoids spared other name) :
    Leaving spared w ((attachForWrite owner target relation).runOn w).2 := by
  refine Action.after_bind_kept (sessionOf_kept owner w) (refl_of (Leaving spared) w)
    fun session _ => ?_
  have hfind : Leaving spared w ((associationOfEntity owner relation).runOn w).2 :=
    leaving_of_widens (associationOfEntity_widens owner relation) w
  rw [Action.runOn_bind]
  rcases hassociation : (associationOfEntity owner relation).runOn w with ⟨_ | a, t⟩ <;>
    rw [hassociation] at hfind
  · exact hfind
  refine trans_of (Leaving spared) hfind ?_
  have hbind (other : EntityRef) : (bindTo session other).Obeys (Leaving spared) :=
    have hset : (updateEntity other fun e => { e with session := some session }).Obeys
        (Leaving spared) := updateEntity_leaving (fun _ => rfl) fun _ => rfl
    .bind .get fun _ => .ite (.bind (leaving_of_still (debug_still _ _)) fun _ => hset) hset
  have hrest : (do
      if !attachable a then throw (.association (.notAttachable relation a.kind.name))
      let other ← reading (attachedEntity · a relation target)
      setForeign other a.foreignKey (← ownerKey owner a)
      if ((← get).entityAt other).session.isNone then bindTo session other
      return (a, other) : Action World (Association × EntityRef)).Obeys (Leaving spared) := by
    refine .guarded fun _ => .bind_of (leaving_of_still (reading_still _)) fun s other hother => ?_
    have hset (key : Value) : (setForeign other a.foreignKey key).Obeys (Leaving spared) := by
      rw [setForeign]
      split
      · next name hname =>
        exact setAttribute_leaving
          (h a t hassociation other (attachedEntity_ok hother) name hname) key
      · exact .throw _
    exact .bind (leaving_of_still (ownerKey_still owner a)) fun key => .bind (hset key) fun _ =>
      .bind .get fun _ => .ite (.bind (hbind other) fun _ => .pure _) (.pure _)
  exact hrest t

end RowMapper.World
