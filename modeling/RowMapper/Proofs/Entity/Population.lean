import RowMapper.Proofs.Entity.Preparation
import RowMapper.Proofs.Entity.Sharing

/-!
# What populating leaves alone

A relation is held only when all of it is loaded.  Until then classes may have been finalized, and
entities have been made of the rows that were answered, but neither can be told from an entity that
was there before (`Widens`).  So `populate` that fails leaves its entity as it was, and one that
goes well sets the relation and nothing else (`populate_sets_the_relation_or_nothing`).
-/
namespace RowMapper.World

open Model (Association ModelClass Registry)

variable {ref : EntityRef} {relation : Value} {shape : Shape} {w t w' : World}

/-! ## 1. Growing -/

/-- Entities were made and values were put on the shelf, and no class was made.  The classes have
the attributes and the keys that they had. -/
structure Widens (w w' : World) : Prop extends Steady w w' where
  classes_eq : w'.registry.classes.length = w.registry.classes.length
  entities_prefix : w.entities <+: w'.entities
  shelf_prefix : w.shelf <+: w'.shelf

instance : IsPreorder World Widens where
  refl w := ⟨refl_of Steady w, rfl, List.prefix_rfl, List.prefix_rfl⟩
  trans _ _ _ h h' := ⟨trans_of Steady h.toSteady h'.toSteady, h'.classes_eq.trans h.classes_eq,
    h.entities_prefix.trans h'.entities_prefix, h.shelf_prefix.trans h'.shelf_prefix⟩

theorem Grows.widens (h : Grows w w') : Widens w w' :=
  ⟨.of_registry h.registry_eq, by rw [h.registry_eq], h.entities_prefix, h.shelf_prefix⟩

theorem Still.widens (h : Still w w') : Widens w w' :=
  ⟨.of_registry h.registry_eq, by rw [h.registry_eq], h.entities_eq ▸ List.prefix_rfl,
    h.shelf_prefix⟩

theorem finalize_widens (id : Nat) : (finalize id).Obeys Widens := fun w =>
  have hregisters := finalize_registers id w
  ⟨hregisters.toSteady, finalize_length id w, hregisters.entities_eq ▸ List.prefix_rfl,
    finalize_along along_shelves id w⟩

theorem associationOfEntity_widens (ref : EntityRef) (name : Value) :
    (associationOfEntity ref name).Obeys Widens := by
  refine .bind .get fun u => .bind (finalize_widens _) fun _ => .bind .get fun _ =>
    .bind (.ofExcept _) fun _ => .guarded fun _ => ?_
  split
  · exact .pure _
  · exact .throw _

theorem load_widens (session : String) (ref : EntityRef) (a : Association) (shape : Shape) :
    (load session ref a shape).Obeys Widens :=
  (load_grows session ref a shape).mono fun _ _ => Grows.widens

/-! ## 2. What reads as before -/

theorem Widens.entityAt_eq (h : Widens w w') (hin : ref.id < w.entities.length) :
    w'.entityAt ref = w.entityAt ref := by
  obtain ⟨made, hmade⟩ := h.entities_prefix
  rw [entityAt, ← hmade, List.getElem?_append_left hin, entityAt]

/-- What is not set on an entity is said by its class. -/
theorem heldAttribute_congr {name : String}
    (hclass : ∀ id, w'.registry.attribute? id name = w.registry.attribute? id name)
    (hmodel : (w'.entityAt ref).model = (w.entityAt ref).model)
    (hget : Entries.get? (w'.entityAt ref).attributes (.str name) =
      Entries.get? (w.entityAt ref).attributes (.str name)) :
    w'.heldAttribute ref name = w.heldAttribute ref name := by
  simp only [heldAttribute, inherited, hget, hmodel, hclass]

theorem Widens.attribute?_eq (h : Widens w w') (id : Nat) (name : String) :
    w'.registry.attribute? id name = w.registry.attribute? id name :=
  h.attribute?_of_length h.classes_eq id name

theorem Widens.heldAttribute_eq (h : Widens w w') (hentity : w'.entityAt ref = w.entityAt ref)
    (name : String) : w'.heldAttribute ref name = w.heldAttribute ref name :=
  heldAttribute_congr (h.attribute?_eq · name) (by rw [hentity]) (by rw [hentity])

theorem Widens.keyValue_eq (h : Widens w w') (hentity : w'.entityAt ref = w.entityAt ref) :
    w'.keyValue ref = w.keyValue ref := by
  obtain ⟨added, flag, hlater⟩ := h.classAt_of_length h.classes_eq (w.entityAt ref).model.id
  rw [keyValue, keyValue, hentity, Registry.mapperOf, Registry.mapperOf, hlater,
    ModelClass.later]
  cases (w.registry.classAt (w.entityAt ref).model.id).mapper with
  | none => rfl
  | some m => exact h.heldAttribute_eq hentity m.key

/-- An entity is as it was, each of its attributes reads as before, and what it holds lies on the
shelf as it did. -/
structure Undisturbed (ref : EntityRef) (w w' : World) : Prop where
  entity_eq : w'.entityAt ref = w.entityAt ref
  reads : ∀ name, w'.readAttribute ref name = w.readAttribute ref name
  shelf_prefix : w.shelf <+: w'.shelf

theorem Undisturbed.refl (ref : EntityRef) (w : World) : Undisturbed ref w w :=
  ⟨rfl, fun _ => rfl, List.prefix_rfl⟩

theorem Widens.undisturbed (h : Widens w w') (hin : ref.id < w.entities.length) :
    Undisturbed ref w w' := by
  have hentity := h.entityAt_eq hin
  refine ⟨hentity, fun name => ?_, h.shelf_prefix⟩
  have hproperty : w'.property? ref name = w.property? ref name := by
    simp only [property?, hentity, h.attribute?_eq]
  simp only [readAttribute, hproperty, h.keyValue_eq hentity, h.heldAttribute_eq hentity]

/-! ## 3. Populating -/

/-- What `populate` does when it goes well. -/
theorem populate_eq_ok (hrun : (populate ref relation shape).runOn w = (.ok (), w')) :
    ∃ session a value t u, (w.entityAt ref).session = some session ∧
      (associationOfEntity ref relation).runOn w = (.ok a, t) ∧
      (load session ref a shape).runOn t = (.ok value, u) ∧
      (holdAttribute ref relation value).runOn u = (.ok (), w') := by
  obtain ⟨session, s, hsession, hbound⟩ := Action.runOn_bind_eq_ok.mp hrun
  obtain ⟨a, t, hassociation, hfound⟩ := Action.runOn_bind_eq_ok.mp hbound
  obtain ⟨value, u, hload, hhold⟩ := Action.runOn_bind_eq_ok.mp hfound
  obtain ⟨hin, rfl⟩ := sessionOf_eq_ok hsession
  exact ⟨session, a, value, t, u, hin, hassociation, hload, hhold⟩

/-- Holding what was loaded cannot fail, so what fails came before. -/
theorem populate_failsIn (ref : EntityRef) (relation : Value) (shape : Shape) :
    (populate ref relation shape).FailsIn Widens := by
  have hsession : (sessionOf ref).Obeys Widens :=
    (sessionOf_still ref).mono fun _ _ => Still.widens
  refine .bind hsession fun session => .bind (associationOfEntity_widens ref relation) fun a => ?_
  exact .then_safe (.of_obeys (load_widens session ref a shape)) fun value u => ⟨_, _, rfl⟩

/-- An entity without a session cannot be populated, and nothing is done. -/
theorem populate_unbound (h : (w.entityAt ref).session = none) :
    ((populate ref relation shape).runOn w).2 = w := by
  refine Action.after_bind_kept (P := (· = w)) (sessionOf_kept ref w) rfl fun session hok => ?_
  obtain ⟨hsession, -⟩ := sessionOf_eq_ok (Prod.ext hok (sessionOf_kept ref w))
  cases h.symm.trans hsession

theorem populate_undisturbed {fault : Fault}
    (hrun : (populate ref relation shape).runOn w = (.error fault, w')) :
    Undisturbed ref w w' := by
  cases hsession : (w.entityAt ref).session with
  | none =>
    obtain rfl : w' = w := (congrArg Prod.snd hrun).symm.trans (populate_unbound hsession)
    exact .refl ref w'
  | some session =>
    have hin : ref.id < w.entities.length := lt_of_bound (by rw [hsession]; rfl)
    exact (populate_failsIn ref relation shape w fault w' hrun).undisturbed hin

/-- Under the name of a relation an entity got what was loaded, and the rest of it, its state and
its session are as before. -/
structure Populated (ref : EntityRef) (relation : Value) (w w' : World) : Prop where
  entity_eq : ∃ placed, w'.entityAt ref = { w.entityAt ref with
    attributes := Entries.insert (w.entityAt ref).attributes relation placed }
  reads : ∀ name, relation.place = none → relation.text? ≠ some name →
    w'.heldAttribute ref name = w.heldAttribute ref name
  shelf_prefix : w.shelf <+: w'.shelf

theorem holdAttribute_populated {value : Value} (hin : ref.id < w.entities.length)
    (hrun : (holdAttribute ref relation value).runOn w = (.ok (), w')) :
    Populated ref relation w w' := by
  have hgrows := (Shelf.store_grows value w.shelf).isPrefix
  cases hrun
  generalize Shelf.store value w.shelf = stored at hgrows
  have hat := entityAt_set hin { w.entityAt ref with
    attributes := Entries.insert (w.entityAt ref).attributes relation stored.1 } stored.2
  refine ⟨⟨stored.1, hat⟩, fun name hplace hne => ?_, hgrows⟩
  refine heldAttribute_congr (fun _ => rfl) ((congrArg Entity.model hat).trans rfl) ?_
  exact (congrArg (fun e => Entries.get? e.attributes (.str name)) hat).trans
    (Entries.get?_insert_of_text_ne hplace hne _)

theorem populate_populated (hrun : (populate ref relation shape).runOn w = (.ok (), w')) :
    Populated ref relation w w' := by
  obtain ⟨session, a, value, t, u, hsession, hassociation, hload, hhold⟩ := populate_eq_ok hrun
  have hin : ref.id < w.entities.length := lt_of_bound (by rw [hsession]; rfl)
  have hwidens : Widens w u :=
    trans_of Widens ((associationOfEntity_widens ref relation).of_run hassociation)
      ((load_widens session ref a shape).of_run hload)
  have hsame := hwidens.entityAt_eq hin
  have hpopulated := holdAttribute_populated
    (Nat.lt_of_lt_of_le hin hwidens.entities_prefix.length_le) hhold
  refine ⟨hsame ▸ hpopulated.entity_eq, fun name hplace hne => ?_,
    hwidens.shelf_prefix.trans hpopulated.shelf_prefix⟩
  exact (hpopulated.reads name hplace hne).trans
    (hwidens.heldAttribute_eq hsame name)

/-- `populate` that raises, at whatever point, leaves every attribute of its entity, what was
loaded earlier under the same name among them, its state and its session; one that returns has
changed only what is held under the name. -/
theorem populate_sets_the_relation_or_nothing (ref : EntityRef) (relation : Value) (shape : Shape)
    (w : World) :
    match (populate ref relation shape).runOn w with
    | (.error _, after) => Undisturbed ref w after
    | (.ok (), after) => Populated ref relation w after := by
  rcases hrun : (populate ref relation shape).runOn w with ⟨fault | _, after⟩
  · exact populate_undisturbed hrun
  · exact populate_populated hrun

end RowMapper.World
