import RowMapper.Proofs.Entity.Found
import RowMapper.Proofs.World.Resolution

/-!
# The life of an entity

Three events change how an entity stands to its row: it is made of a row, it is saved, or its row is
deleted.  `Lives events w w'` says that a world becomes another one through events: then every
entity has the state of the latest event that concerns it.  `Quiet` worlds follow each other without
events.  Making entities, binding them and setting what they hold are no events.
-/
namespace RowMapper.World

open Model (Mapper Registry)

variable {α β : Type} {ref : EntityRef} {w t w' : World}

/-! ## 1. Events -/

/-- What changes how an entity stands to its row. -/
inductive Event where
  | hydrated (ref : EntityRef) (model : Nat) (excluded : List String) (row : Row)
  | saved (ref : EntityRef)
  | deleted (ref : EntityRef)

/-- The entity that an event concerns. -/
def Event.entity : Event → EntityRef
  | .hydrated ref _ _ _ => ref
  | .saved ref => ref
  | .deleted ref => ref

/-- The state that an event brings. -/
def Event.state : Event → Lifecycle
  | .hydrated _ _ _ _ => .persistent
  | .saved _ => .persistent
  | .deleted _ => .deleted

/-- The state of an entity after events: that of the latest one that concerns it, or else the state
before. -/
def stateAfter (before : Lifecycle) (events : List Event) (ref : EntityRef) : Lifecycle :=
  ((events.filter fun e => e.entity.id == ref.id).getLast?.map Event.state).getD before

theorem stateAfter_append (before : Lifecycle) (events more : List Event) (ref : EntityRef) :
    stateAfter before (events ++ more) ref =
      stateAfter (stateAfter before events ref) more ref := by
  rw [stateAfter, stateAfter, stateAfter, List.filter_append, List.getLast?_append]
  cases (more.filter fun e => e.entity.id == ref.id).getLast? <;> rfl

/-- Events of other entities do not matter. -/
theorem stateAfter_of_others {before : Lifecycle} {events : List Event}
    (h : ∀ e ∈ events, e.entity.id ≠ ref.id) : stateAfter before events ref = before := by
  have hnone : (events.filter fun e => e.entity.id == ref.id) = [] := by simpa using h
  rw [stateAfter, hnone]
  rfl

/-! ## 2. Worlds between events -/

/-- The classes are the same, no entity changes its state or its class or loses its session, and new
entities are transient. -/
structure Quiet (w w' : World) : Prop where
  entities_le : w.entities.length ≤ w'.entities.length
  state_eq : ∀ ref, (w'.entityAt ref).state = (w.entityAt ref).state
  bound : ∀ ref, (w.entityAt ref).session.isSome → (w'.entityAt ref).session.isSome
  model_eq : ∀ ref, ref.id < w.entities.length →
    (w'.entityAt ref).model = (w.entityAt ref).model
  registry_eq : w'.registry = w.registry

/-- A world that another one becomes through events: every entity has the state of the latest event
that concerns it, and is bound if there was one. -/
structure Lives (events : List Event) (w w' : World) : Prop where
  entities_le : w.entities.length ≤ w'.entities.length
  state_eq : ∀ ref, (w'.entityAt ref).state = stateAfter (w.entityAt ref).state events ref
  bound : ∀ ref, (w.entityAt ref).session.isSome → (w'.entityAt ref).session.isSome
  held : ∀ e ∈ events, (w'.entityAt e.entity).session.isSome
  model_eq : ∀ ref, ref.id < w.entities.length →
    (w'.entityAt ref).model = (w.entityAt ref).model
  steady : Steady w w'

instance : IsPreorder World Quiet where
  refl _ := ⟨Nat.le_refl _, fun _ => rfl, fun _ h => h, fun _ _ => rfl, rfl⟩
  trans _ _ _ h h' := ⟨Nat.le_trans h.entities_le h'.entities_le,
    fun ref => (h'.state_eq ref).trans (h.state_eq ref),
    fun ref hb => h'.bound ref (h.bound ref hb),
    fun ref hin =>
      (h'.model_eq ref (Nat.lt_of_lt_of_le hin h.entities_le)).trans (h.model_eq ref hin),
    h'.registry_eq.trans h.registry_eq⟩

theorem Lives.trans {events more : List Event} (h : Lives events w t) (h' : Lives more t w') :
    Lives (events ++ more) w w' where
  entities_le := Nat.le_trans h.entities_le h'.entities_le
  state_eq ref := by rw [h'.state_eq, h.state_eq, stateAfter_append]
  bound ref hb := h'.bound ref (h.bound ref hb)
  held := List.forall_mem_append.mpr ⟨fun e he => h'.bound e.entity (h.held e he), h'.held⟩
  model_eq ref hin :=
    (h'.model_eq ref (Nat.lt_of_lt_of_le hin h.entities_le)).trans (h.model_eq ref hin)
  steady := trans_of Steady h.steady h'.steady

instance : IsPreorder World (Lives []) where
  refl w := ⟨Nat.le_refl _, fun _ => rfl, fun _ h => h, nofun, fun _ _ => rfl, refl_of Steady w⟩
  trans _ _ _ h h' := h.trans h'

theorem Quiet.lives (h : Quiet w w') : Lives [] w w' :=
  ⟨h.entities_le, h.state_eq, h.bound, nofun, h.model_eq, .of_registry h.registry_eq⟩

theorem Still.entityAt_eq (h : Still w w') (ref : EntityRef) : w'.entityAt ref = w.entityAt ref := by
  rw [entityAt, entityAt, h.entities_eq]

theorem Still.quiet (h : Still w w') : Quiet w w' where
  entities_le := h.entities_eq ▸ Nat.le_refl _
  state_eq ref := by rw [h.entityAt_eq]
  bound ref := by rw [h.entityAt_eq]; exact id
  model_eq ref _ := by rw [h.entityAt_eq]
  registry_eq := h.registry_eq

theorem Registers.lives (h : Registers w w') : Lives [] w w' := by
  have hat (ref : EntityRef) : w'.entityAt ref = w.entityAt ref := by
    rw [entityAt, entityAt, h.entities_eq]
  exact ⟨h.entities_eq ▸ Nat.le_refl _, fun ref => by rw [hat]; rfl,
    fun ref => by rw [hat]; exact id,
    nofun, fun ref _ => by rw [hat], h.toSteady⟩

theorem quiet_of_still {action : Action World α} (h : action.Obeys Still) : action.Obeys Quiet :=
  h.mono fun _ _ => Still.quiet

theorem lives_of_quiet {action : Action World α} (h : action.Obeys Quiet) :
    action.Obeys (Lives []) := h.mono fun _ _ => Quiet.lives

theorem lives_of_registers {action : Action World α} (h : action.Obeys Registers) :
    action.Obeys (Lives []) := h.mono fun _ _ => Registers.lives

/-- An entity that is bound is there. -/
theorem lt_of_bound (h : (w.entityAt ref).session.isSome) : ref.id < w.entities.length := by
  rcases Nat.lt_or_ge ref.id w.entities.length with hin | hout
  · exact hin
  · rw [entityAt, List.getElem?_eq_none hout] at h
    cases h

theorem updateEntity_entityAt (ref : EntityRef) (change : Entity → Entity) (w : World)
    (other : EntityRef) : ((updateEntity ref change).runOn w).2.entityAt other =
      if other.id = ref.id ∧ ref.id < w.entities.length then change (w.entityAt ref)
      else w.entityAt other := by
  show ((w.entities.set ref.id (change (w.entityAt ref)))[other.id]?).getD default = _
  rw [List.getElem?_set]
  by_cases hother : other.id = ref.id
  · by_cases hin : ref.id < w.entities.length
    · simp [hother, hin]
    · simp [entityAt, hother, hin]
  · simp [entityAt, hother, Ne.symm hother]

theorem updateEntity_quiet (ref : EntityRef) {change : Entity → Entity}
    (hstate : ∀ e, (change e).state = e.state)
    (hbound : ∀ e, e.session.isSome → (change e).session.isSome)
    (hmodel : ∀ e, (change e).model = e.model) : (updateEntity ref change).Obeys Quiet := by
  intro w
  have hat := updateEntity_entityAt ref change w
  have hsame {other : EntityRef} (h : other.id = ref.id) : w.entityAt other = w.entityAt ref := by
    rw [entityAt, h]
    rfl
  refine ⟨Nat.le_of_eq List.length_set.symm, fun other => ?_, fun other => ?_,
    fun other _ => ?_, rfl⟩ <;>
    rw [hat other] <;> split
  · next h => rw [hstate, hsame h.1]
  · rfl
  · next h => rw [hsame h.1]; exact hbound _
  · exact id
  · next h => rw [hmodel, hsame h.1]
  · rfl

theorem addEntity_quiet {e : Entity} (h : e.state = .transient) : (addEntity e).Obeys Quiet := by
  intro w
  have hold {ref : EntityRef} (hin : ref.id < w.entities.length) :
      ((addEntity e).runOn w).2.entityAt ref = w.entityAt ref := by
    show ((w.entities ++ [e])[ref.id]?).getD default = _
    rw [List.getElem?_append_left hin]
    rfl
  have hnew {ref : EntityRef} (hout : ¬ref.id < w.entities.length) :
      w.entityAt ref = default ∧ (((addEntity e).runOn w).2.entityAt ref).state = .transient := by
    have hnone : w.entities[ref.id]? = none := List.getElem?_eq_none (Nat.le_of_not_lt hout)
    refine ⟨by rw [entityAt, hnone]; rfl, ?_⟩
    show (((w.entities ++ [e])[ref.id]?).getD default).state = _
    rw [List.getElem?_append_right (Nat.le_of_not_lt hout), List.getElem?_singleton]
    split
    · exact h
    · rfl
  refine ⟨by simp [addEntity_runOn], fun ref => ?_, fun ref hb => ?_,
    fun ref hin => by rw [hold hin],
    rfl⟩
  · by_cases hin : ref.id < w.entities.length
    · rw [hold hin]
    · rw [(hnew hin).2, (hnew hin).1]
      rfl
  · rw [hold (lt_of_bound hb)]
    exact hb

/-- Setting the state of an entity that is bound then is an event. -/
theorem updateEntity_lives (e : Event) (change : Entity → Entity)
    (hin : e.entity.id < w.entities.length) (hstate : ∀ known, (change known).state = e.state)
    (hbound : (change (w.entityAt e.entity)).session.isSome)
    (hmodel : ∀ known, (change known).model = known.model) :
    Lives [e] w ((updateEntity e.entity change).runOn w).2 := by
  have hat := updateEntity_entityAt e.entity change w
  have hsame {other : EntityRef} (h : other.id = e.entity.id) :
      w.entityAt other = w.entityAt e.entity := by
    rw [entityAt, h]
    rfl
  refine ⟨Nat.le_of_eq List.length_set.symm, fun other => ?_, fun other => ?_,
    fun known hknown => ?_,
    fun other _ => ?_, .of_registry rfl⟩
  · rw [hat other]
    by_cases h : other.id = e.entity.id
    · simp [h, hin, hstate, stateAfter]
    · rw [if_neg fun hboth => h hboth.1, stateAfter_of_others (by simpa using Ne.symm h)]
  · rw [hat other]
    split
    · exact fun _ => hbound
    · exact id
  · rw [List.mem_singleton.mp hknown, hat, if_pos ⟨rfl, hin⟩]
    exact hbound
  · rw [hat other]
    split
    · next h => rw [hmodel, hsame h.1]
    · rfl

/-! ## 3. Making and setting -/

theorem holdAttribute_quiet (ref : EntityRef) (name value : Value) :
    (holdAttribute ref name value).Obeys Quiet :=
  .bind (quiet_of_still (store_still value)) fun _ =>
    updateEntity_quiet ref (fun _ => rfl) (fun _ h => h) fun _ => rfl

theorem setAttribute_quiet (ref : EntityRef) (name : String) (value : Value) :
    (setAttribute ref name value).Obeys Quiet :=
  .bind .get fun _ => .guarded fun _ => holdAttribute_quiet ref _ value

theorem setEntries_quiet (ref : EntityRef) (entries : Entries) :
    (setEntries ref entries).Obeys Quiet := by
  induction entries with
  | nil => exact .pure _
  | cons entry rest ih =>
    obtain ⟨name, value⟩ := entry
    rw [setEntries]
    cases name.text? with
    | some name => exact .bind (setAttribute_quiet ref name value) fun _ => ih
    | none => exact .throw _

theorem make_quiet (model : Nat) (properties : Dictionary Value) :
    (make model properties).Obeys Quiet :=
  .bind .get fun _ => .bind (addEntity_quiet rfl) fun ref =>
    .bind (setEntries_quiet ref _) fun _ => .pure ref

theorem instantiate_quiet (model : Nat) (properties : Dictionary Value) :
    (instantiate model properties).Obeys Quiet :=
  .bind .get fun _ => .ite (.bind (make_quiet model properties) fun _ => .pure _)
    (.guarded fun _ => .pure _)

theorem bindTo_quiet (session : String) (ref : EntityRef) : (bindTo session ref).Obeys Quiet := by
  have hbind : (updateEntity ref fun e => { e with session := some session }).Obeys Quiet :=
    updateEntity_quiet ref (fun _ => rfl) (fun _ _ => rfl) fun _ => rfl
  exact .bind .get fun _ => .ite (.bind (quiet_of_still (debug_still _ _)) fun _ => hbind) hbind

theorem sessionOf_still (ref : EntityRef) : (sessionOf ref).Obeys Still := by
  intro w
  rw [sessionOf_kept]
  exact refl_of Still w

/-- Only an entity that is bound has a session. -/
theorem sessionOf_eq_ok {session : String} (h : (sessionOf ref).runOn w = (.ok session, t)) :
    (w.entityAt ref).session = some session ∧ t = w := by
  have hkept := sessionOf_kept ref w
  rw [h] at hkept
  rw [sessionOf, Action.runOn_bind_ok (Action.runOn_get w)] at h
  cases hsession : (w.entityAt ref).session with
  | none =>
    rw [hsession] at h
    cases h
  | some known =>
    rw [hsession] at h
    cases h
    exact ⟨rfl, hkept⟩

theorem bound_of_sessionOf {session : String} (h : (sessionOf ref).runOn w = (.ok session, t)) :
    (w.entityAt ref).session.isSome ∧ t = w := by
  obtain ⟨hsession, hsame⟩ := sessionOf_eq_ok h
  exact ⟨by rw [hsession]; rfl, hsame⟩

theorem setProperties_quiet (ref : EntityRef) (properties : Value) :
    (setProperties ref properties).Obeys Quiet := by
  refine .bind .get fun w => ?_
  split
  · exact setEntries_quiet ref _
  · exact .throw _

theorem defaultValue_quiet (absent : Model.Default) : (defaultValue absent).Obeys Quiet := by
  rw [defaultValue.eq_def]
  split
  · exact instantiate_quiet _ _
  · exact .pure _
  · exact quiet_of_still (reading_still _)

theorem insertData_quiet (ref : EntityRef) (key : String) (columns : List (String × Model.Column)) :
    (insertData ref key columns).Obeys Quiet := by
  induction columns with
  | nil => exact .pure _
  | cons entry rest ih =>
    refine .bind .get fun w => ?_
    split
    · exact .bind ih fun _ => .pure _
    · exact .bind (defaultValue_quiet _) fun _ => .bind (holdAttribute_quiet ref _ _) fun _ =>
        .bind ih fun _ => .pure _
    · exact ih

theorem update_still (ref : EntityRef) : (update ref).Obeys Still :=
  .bind (sessionOf_still ref) fun _ => .bind (reading_still _) fun _ => .bind .get fun _ =>
    .bind (reading_still _) fun _ => .bind (.ofExcept _) fun _ => .bind (query_still _) fun _ =>
    .ofExcept _

end RowMapper.World
