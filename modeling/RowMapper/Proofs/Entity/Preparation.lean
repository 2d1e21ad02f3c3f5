import RowMapper.Proofs.Entity.Insertion
import RowMapper.Proofs.Entity.Linking
import RowMapper.Proofs.Entity.Sharing
import RowMapper.Proofs.World.Unresolved

/-!
# Making an entity ready to be written

On its way to being written an entity gets what is missing: the key of the owner that it is linked
to, a session, and defaults for columns under which it holds nothing.  `Prepares` says what all this
can do to the entity, and that it does nothing to any other.  `attach` comes to the write with the
key of the owner in place (`attachForWrite_prepares`), or it fails before it has touched an entity
(`attachForWrite_failsIn`).
-/
namespace RowMapper

/-- Writing under a text leaves what is under any other key that was not taken from the shelf. -/
theorem Entries.get?_insert_text {key : Value} (hplace : key.place = none) {name : String}
    (hne : key.text? ≠ some name) (entries : Entries) (v : Value) :
    Entries.get? (Entries.insert entries (.str name) v) key = Entries.get? entries key := by
  have hother {known : Value} (hknown : known.text? = some name) : known.sameKey key = false := by
    rw [Bool.eq_false_iff]
    intro hsame
    cases known <;> cases hknown
    exact hne (Value.text?_of_sameKey_strAt hplace hsame)
  unfold Entries.get?
  induction entries with
  | nil => simp [Entries.insert, hother (show (Value.str name).text? = some name from rfl)]
  | cons entry rest ih =>
    obtain ⟨known, old⟩ := entry
    by_cases hknown : known.text? = some name
    · simp [Entries.insert, Value.sameKey_str, hknown, hother hknown]
    · cases hsame : known.sameKey key <;>
        simp [Entries.insert, Value.sameKey_str, hknown, hsame, ih]

namespace World

open Model (Association Mapper)

variable {ref owner other : EntityRef} {u w t w' : World} {set added : String → Prop}
  {session : String}

/-! ## 1. Getting what is missing -/

/-- How an entity may differ after it was made ready: something may be set under some names,
whatever was there, and under some others if there was nothing, and it may have got a session if it
had none. -/
structure Readied (set added : String → Prop) (session : String) (e e' : Entity) : Prop where
  model_eq : e'.model = e.model
  state_eq : e'.state = e.state
  session_eq : e'.session = e.session ∨ e.session = none ∧ e'.session = some session
  kept : ∀ key v, key.place = none → (∀ name, key.text? = some name → ¬set name) →
    Entries.get? e.attributes key = some v → Entries.get? e'.attributes key = some v
  new : ∀ key, key.place = none → Entries.get? e.attributes key = none →
    Entries.get? e'.attributes key ≠ none → ∃ name, key.text? = some name ∧ (set name ∨ added name)

theorem Readied.refl (e : Entity) : Readied set added session e e :=
  ⟨rfl, rfl, .inl rfl, fun _ _ _ _ h => h, fun _ _ hnone h => absurd hnone h⟩

theorem Readied.trans {e e' e'' : Entity} (h : Readied set added session e e')
    (h' : Readied set added session e' e'') : Readied set added session e e'' where
  model_eq := h'.model_eq.trans h.model_eq
  state_eq := h'.state_eq.trans h.state_eq
  session_eq := by
    rcases h.session_eq with heq | ⟨hnone, hsome⟩
    · rw [← heq]
      exact h'.session_eq
    · rcases h'.session_eq with heq' | ⟨hnone', -⟩
      · exact .inr ⟨hnone, heq'.trans hsome⟩
      · cases hsome.symm.trans hnone'
  kept key v hplace hset hv := h'.kept key v hplace hset (h.kept key v hplace hset hv)
  new key hplace hnone hsome := by
    by_cases hbetween : Entries.get? e'.attributes key = none
    · exact h'.new key hplace hbetween hsome
    · exact h.new key hplace hnone hbetween

theorem Readied.mono {set' added' : String → Prop} {e e' : Entity}
    (h : Readied set added session e e') (hset : ∀ name, set name → set' name)
    (hadded : ∀ name, added name → added' name) : Readied set' added' session e e' where
  model_eq := h.model_eq
  state_eq := h.state_eq
  session_eq := h.session_eq
  kept key v hplace hnot := h.kept key v hplace fun name hname hin => hnot name hname (hset name hin)
  new key hplace hnone hsome := by
    obtain ⟨name, hname, hin⟩ := h.new key hplace hnone hsome
    exact ⟨name, hname, hin.imp (hset name) (hadded name)⟩

/-- Something is held under a name that may be set, or under which there is nothing. -/
theorem Readied.insert {e : Entity} {name : String} (v : Value)
    (h : set name ∨ added name ∧ Entries.get? e.attributes (.str name) = none) :
    Readied set added session e
      { e with attributes := Entries.insert e.attributes (.str name) v } where
  model_eq := rfl
  state_eq := rfl
  session_eq := .inl rfl
  kept key old hplace hset hold := by
    by_cases hname : key.text? = some name
    · obtain rfl : key = .str name := by
        cases key <;> cases hname
        cases hplace
        rfl
      rcases h with hin | ⟨-, hnone⟩
      · exact absurd hin (hset name hname)
      · cases hnone.symm.trans hold
    · exact (Entries.get?_insert_text hplace hname _ v).trans hold
  new key hplace hnone hsome := by
    by_cases hname : key.text? = some name
    · exact ⟨name, hname, h.imp_right And.left⟩
    · exact absurd ((Entries.get?_insert_text hplace hname _ v).trans hnone) hsome

/-- From one world to another only one entity is made ready; others may be made. -/
structure Readies (other : EntityRef) (set added : String → Prop) (session : String)
    (w w' : World) : Prop where
  entities_le : w.entities.length ≤ w'.entities.length
  others : ∀ ref : EntityRef, ref.id < w.entities.length → ref.id ≠ other.id →
    w'.entityAt ref = w.entityAt ref
  target : Readied set added session (w.entityAt other) (w'.entityAt other)
  shelf_prefix : w.shelf <+: w'.shelf

theorem Readies.mono {set' added' : String → Prop} (h : Readies other set added session w t)
    (hset : ∀ name, set name → set' name) (hadded : ∀ name, added name → added' name) :
    Readies other set' added' session w t :=
  ⟨h.entities_le, h.others, h.target.mono hset hadded, h.shelf_prefix⟩

theorem Readies.trans (h : Readies other set added session w t)
    (h' : Readies other set added session t w') : Readies other set added session w w' where
  entities_le := Nat.le_trans h.entities_le h'.entities_le
  others ref hin hne := (h'.others ref (Nat.lt_of_lt_of_le hin h.entities_le) hne).trans
    (h.others ref hin hne)
  target := h.target.trans h'.target
  shelf_prefix := h.shelf_prefix.trans h'.shelf_prefix

theorem readies_of_entities (hentities : t.entities = w.entities) (hshelf : w.shelf <+: t.shelf) :
    Readies other set added session w t := by
  have hsame (ref : EntityRef) : t.entityAt ref = w.entityAt ref := by
    rw [entityAt, hentities, entityAt]
  exact ⟨hentities ▸ Nat.le_refl _, fun ref _ _ => hsame ref, hsame other ▸ .refl _, hshelf⟩

/-- What is done to the entity itself. -/
theorem readies_set {e : Entity} {shelf : Shelf} (hin : other.id < w.entities.length)
    (hshelf : w.shelf <+: shelf) (h : Readied set added session (w.entityAt other) e) :
    Readies other set added session w
      { w with entities := w.entities.set other.id e, shelf } where
  entities_le := by simp
  others ref _ hne := by simp [entityAt, List.getElem?_set_ne (Ne.symm hne)]
  target := by rwa [entityAt_set hin]
  shelf_prefix := hshelf

theorem Adds.readies (h : Adds w t) (hin : other.id < w.entities.length) :
    Readies other set added session w t where
  entities_le := h.length_le
  others _ hin' _ := h.entityAt_eq hin'
  target := h.entityAt_eq hin ▸ .refl _
  shelf_prefix := h.shelf_prefix

/-- If an entity is there, it is made ready. -/
def Prepares (other : EntityRef) (set added : String → Prop) (session : String)
    (w w' : World) : Prop :=
  other.id < w.entities.length → Readies other set added session w w'

instance : IsPreorder World (Prepares other set added session) where
  refl _ _ := readies_of_entities rfl List.prefix_rfl
  trans _ _ _ h h' hin := (h hin).trans (h' (Nat.lt_of_lt_of_le hin (h hin).entities_le))

theorem prepares_of_still {α : Type} {action : Action World α} (h : action.Obeys Still) :
    action.Obeys (Prepares other set added session) :=
  h.mono fun _ _ hstill _ => readies_of_entities hstill.entities_eq hstill.shelf_prefix

theorem holdAttribute_prepares {name : String} (v : Value) (h : set name ∨
    added name ∧ Entries.get? (w.entityAt other).attributes (.str name) = none) :
    Prepares other set added session w ((holdAttribute other (.str name) v).runOn w).2 :=
  fun hin => readies_set hin (Shelf.store_grows v w.shelf).isPrefix (.insert _ h)

theorem setAttribute_prepares (other : EntityRef) (name : String) (v : Value) :
    (setAttribute other name v).Obeys (Prepares other (· = name) added session) :=
  .bind .get fun _ => .guarded fun _ _ => holdAttribute_prepares v (.inl rfl)

theorem bindTo_eq (hnone : (w.entityAt other).session = none) (session : String) :
    (bindTo session other).runOn w =
      (updateEntity other fun e => { e with session := some session }).runOn w := by
  rw [bindTo, Action.runOn_bind_ok (Action.runOn_get w), hnone]
  rfl

theorem bindTo_prepares (hnone : (w.entityAt other).session = none)
    (hrun : (bindTo session other).runOn w = (.ok (), t)) :
    Prepares other set added session w t := by
  rw [bindTo_eq hnone] at hrun
  cases hrun
  refine fun hin => readies_set hin List.prefix_rfl ?_
  exact ⟨rfl, rfl, .inr ⟨hnone, rfl⟩, fun _ _ _ _ h => h, fun _ _ hnone h => absurd hnone h⟩

/-- Defaults are set where there is nothing. -/
theorem insertData_prepares (key : String) {columns : List (String × Model.Column)}
    (h : ∀ name ∈ columns.map (·.1), added name) :
    (insertData other key columns).Obeys (Prepares other set added session) := by
  induction columns with
  | nil => exact .pure _
  | cons entry rest ih =>
    obtain ⟨name, column⟩ := entry
    obtain ⟨hname, hrest⟩ := List.forall_mem_cons.mp h
    intro w hin
    rw [insertData, Action.runOn_bind_ok (Action.runOn_get w)]
    split
    · exact (Action.Obeys.bind (ih hrest) fun _ => .pure _) w hin
    · next absent hnone _ =>
      have hadds := defaultValue_adds absent w
      rw [Action.runOn_bind]
      rcases hmade : (defaultValue absent).runOn w with ⟨fault | value, t⟩ <;> rw [hmade] at hadds
      · exact hadds.readies hin
      -- the default is made aside, so there is still nothing under the name
      rw [← hadds.entityAt_eq hin] at hnone
      have hheld : Prepares other set added session t
          ((holdAttribute other (.str name) value).runOn t).2 :=
        holdAttribute_prepares value (.inr ⟨hname, hnone⟩)
      have hothers : (do return (name, value) :: (← insertData other key rest)).Obeys
          (Prepares other set added session) := .bind (ih hrest) fun _ => .pure _
      exact trans_of (Prepares other set added session) (fun hin => hadds.readies hin)
        (trans_of (Prepares other set added session) hheld (hothers _)) hin
    · exact ih hrest w hin

/-! ## 2. The key of an owner -/

/-- Looking up an association of an entity leaves its key. -/
theorem associationOfEntity_keyValue {relation : Value} {a : Association}
    (hrun : (associationOfEntity owner relation).runOn u = (.ok a, t)) :
    t.keyValue owner = u.keyValue owner := by
  have hregisters := (associationOfEntity_registers owner relation).of_run hrun
  obtain ⟨hfinalize, -⟩ := associationOf_found hrun
  have hlength := finalize_length (u.entityAt owner).model.id u
  rw [hfinalize] at hlength
  obtain ⟨m, _, hread, -⟩ := Action.runOn_bind_eq_ok.mp hfinalize
  obtain ⟨known, hknown, -⟩ := bind_eq_ok.mp (reading_eq_ok.mp hread).1
  obtain ⟨added, flag, hlater⟩ := hregisters.mapperOf_eq hknown
  have hentity : t.entityAt owner = u.entityAt owner := by
    rw [entityAt, hregisters.entities_eq, entityAt]
  rw [keyValue, keyValue, hentity, hknown, hlater]
  show t.heldAttribute owner known.key = u.heldAttribute owner known.key
  simp only [heldAttribute, inherited, hentity,
    hregisters.toSteady.attribute?_of_length hlength]

/-- An entity can be an owner only if it has a key. -/
theorem ownerKey_ok {a : Association} {key : Value}
    (hrun : (ownerKey ref a).runOn w = (.ok key, t)) :
    w.keyValue ref = .ok key ∧ key.isNull = false := by
  obtain ⟨found, _, hread, hrun⟩ := Action.runOn_bind_eq_ok.mp hrun
  obtain ⟨hkey, rfl⟩ := reading_eq_ok.mp hread
  obtain ⟨hnull, hrun⟩ := Action.runOn_guarded_eq_ok.mp hrun
  cases hrun
  exact ⟨hkey, by simpa using hnull⟩

/-! ## 3. The way to a write -/

/-- No entity is touched. -/
structure Unset (w w' : World) : Prop where
  entities_eq : w'.entities = w.entities
  shelf_prefix : w.shelf <+: w'.shelf

instance : IsPreorder World Unset where
  refl _ := ⟨rfl, List.prefix_rfl⟩
  trans _ _ _ h h' := ⟨h'.entities_eq.trans h.entities_eq, h.shelf_prefix.trans h'.shelf_prefix⟩

theorem unset_of_still {α : Type} {action : Action World α} (h : action.Obeys Still) :
    action.Obeys Unset := h.mono fun _ _ hstill => ⟨hstill.entities_eq, hstill.shelf_prefix⟩

theorem associationOfEntity_unset (ref : EntityRef) (name : Value) :
    (associationOfEntity ref name).Obeys Unset := fun w =>
  ⟨(associationOfEntity_registers ref name w).entities_eq, associationOfEntity_shelves ref name w⟩

section Failing

variable {R : World → World → Prop} [IsPreorder World R]

/-- An attribute that cannot be set is refused before anything is done. -/
theorem setAttribute_failsIn (ref : EntityRef) (name : String) (v : Value) :
    (setAttribute ref name v).FailsIn R :=
  .bind .get fun _ => .guarded fun _ _ _ _ hrun => nomatch hrun

theorem setForeign_failsIn (ref : EntityRef) (foreignKey v : Value) :
    (setForeign ref foreignKey v).FailsIn R := by
  rw [setForeign]
  split
  · exact setAttribute_failsIn ref _ v
  · exact .of_obeys (.throw _)

end Failing

/-- An entity that cannot be linked is not touched on its way to being written. -/
theorem attachForWrite_failsIn (owner : EntityRef) (target relation : Value) :
    (attachForWrite owner target relation).FailsIn Unset := by
  refine .bind (unset_of_still (sessionOf_still owner)) fun session =>
    .bind (associationOfEntity_unset owner relation) fun a => .guarded fun _ =>
    .bind (unset_of_still (reading_still _)) fun other =>
    .bind (unset_of_still (ownerKey_still owner a)) fun key =>
    .then_safe (setForeign_failsIn other a.foreignKey key) fun _ w => ?_
  rw [Action.runOn_bind_ok (Action.runOn_get w)]
  split
  · next hnone =>
    exact ⟨_, _, Action.runOn_bind_ok (bindTo_eq (Option.isNone_iff_eq_none.mp hnone) session)⟩
  · exact ⟨_, _, rfl⟩

/-- An entity comes to being written with the key of its owner under the foreign key, and in the
session of the owner if it had none. -/
theorem attachForWrite_prepares {relation target : Value} {a : Association}
    (hrun : (attachForWrite owner target relation).runOn u = (.ok (a, other), t)) :
    ∃ session name key, (u.entityAt owner).session = some session ∧
      a.foreignKey.text? = some name ∧ u.keyValue owner = .ok key ∧ key.isNull = false ∧
      (other.id < u.entities.length → Holds other name key t) ∧
      ∀ added : String → Prop, Prepares other (· = name) added session u t := by
  obtain ⟨-, session, key, t₁, t₂, t₃, hsession, hassociation, hkey, hset, hlast⟩ :=
    attachForWrite_eq_ok hrun
  have hunset : Unset u t₁ := (associationOfEntity_unset owner relation).of_run hassociation
  have hstill := (ownerKey_still owner a).of_run hkey
  have hbefore : Unset u t₂ :=
    trans_of Unset hunset ⟨hstill.entities_eq, hstill.shelf_prefix⟩
  obtain ⟨hkey, hnull⟩ := ownerKey_ok hkey
  rw [associationOfEntity_keyValue hassociation] at hkey
  rw [setForeign] at hset
  split at hset
  · next name hname =>
    have hprepares (added : String → Prop) : Prepares other (· = name) added session u t₃ :=
      fun hin => .trans (readies_of_entities hbefore.entities_eq hbefore.shelf_prefix)
        ((setAttribute_prepares other name key).of_run hset (hbefore.entities_eq ▸ hin))
    have hheld (hin : other.id < u.entities.length) : Holds other name key t₃ :=
      (setAttribute_holds hset (hbefore.entities_eq ▸ hin)).1
    have hin₃ (hin : other.id < u.entities.length) : other.id < t₃.entities.length :=
      Nat.lt_of_lt_of_le hin (hprepares (fun _ => True) hin).entities_le
    rcases hlast with rfl | ⟨hnone, hbind⟩
    · exact ⟨session, name, key, hsession, hname, hkey, hnull, hheld, hprepares⟩
    · refine ⟨session, name, key, hsession, hname, hkey, hnull,
        fun hin => (bindTo_holds hbind (hin₃ hin) (hheld hin)).1, fun added hin => ?_⟩
      exact (hprepares added hin).trans (bindTo_prepares hnone hbind (hin₃ hin))
  · cases hset

theorem attachForWrite_length {relation target : Value} {a : Association}
    (hrun : (attachForWrite owner target relation).runOn u = (.ok (a, other), t)) :
    t.registry.classes.length = u.registry.classes.length := by
  obtain ⟨-, session, key, t₁, t₂, t₃, -, hassociation, hkey, hset, hlast⟩ :=
    attachForWrite_eq_ok hrun
  have hfound : t₁.registry.classes.length = u.registry.classes.length := by
    have hlength := finalize_length (u.entityAt owner).model.id u
    rwa [(associationOf_found hassociation).1] at hlength
  have hregistry : t₃.registry = t₁.registry :=
    ((setForeign_quiet other a.foreignKey key).of_run hset).registry_eq.trans
      ((ownerKey_still owner a).of_run hkey).registry_eq
  rw [← hfound, ← hregistry]
  rcases hlast with rfl | ⟨-, hbind⟩
  · rfl
  · rw [((bindTo_quiet session other).of_run hbind).registry_eq]

/-- An entity is written to the table that its class had before. -/
theorem attachForWrite_mapperOf {relation target : Value} {a : Association} {m' : Mapper}
    (hin : other.id < u.entities.length)
    (hrun : (attachForWrite owner target relation).runOn u = (.ok (a, other), t))
    (hm' : t.mapperOf other = .ok m') :
    ∃ m, u.registry.mapperOf (u.entityAt other).model.id = .ok m ∧ m'.key = m.key ∧
      m'.columns = m.columns ∧ m'.tableName = t.shelf.expand m.tableName := by
  have hlives := (attachForWrite_lives owner target relation).of_run hrun
  obtain ⟨known, hknown, hm'⟩ := bind_eq_ok.mp hm'
  rw [hlives.model_eq other hin] at hknown
  obtain ⟨m, hm⟩ := hlives.steady.mapperOf_of_length (attachForWrite_length hrun) hknown
  obtain ⟨added, flag, hlater⟩ := hlives.steady.mapperOf_eq hm
  cases hlater.symm.trans hknown
  cases hm'
  exact ⟨m, hm, rfl, rfl, rfl⟩

end World
end RowMapper
