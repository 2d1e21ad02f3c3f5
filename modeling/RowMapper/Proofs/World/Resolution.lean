import RowMapper.Proofs.Dictionary
import RowMapper.Proofs.Model.Extension
import RowMapper.Proofs.World.Definition
import RowMapper.Proofs.World.Finalization
import RowMapper.Proofs.World.Still

/-!
# What was found for an association

Finding the targets of the associations of a class writes what was found into the associations, and
an association can be in the tables of several classes, since classes inherit it.  `Steady` says
what definitions, declarations and finalizing leave alone: the classes, what their tables hold, and
what was found for an association, as long as no other class that has the association in its table
is finalized later (`defineShared_registers`, `declare_registers`, `finalize_registers`).
-/
namespace RowMapper

open Model (Association AssociationKind Declaration Definition Mapper ModelClass Registry)

/-! ## 1. Associations -/

/-- The joining model as it was declared; other kinds have none. -/
def Model.AssociationKind.through : AssociationKind → Value
  | .belongsToMany through _ _ => through
  | _ => .null

/-- What was found for a target is the same later, unless it is `free` to be found anew.  A class
that was given as the target is always found. -/
structure TargetKept (free : Prop) (given : Value) (found found' : Option ModelRef) : Prop where
  same : found' = found ∨ free
  of_class : ∀ ref, given = .model ref → found = some ref → found' = some ref

/-- An association later, with what was found for its targets. -/
structure AssociationKept (free : Prop) (a a' : Association) : Prop where
  kind_eq : a'.kind = a.kind
  target_eq : a'.target = a.target
  foreignKey_eq : a'.foreignKey = a.foreignKey
  target : TargetKept free a.target a.resolved a'.resolved
  through : TargetKept free a.kind.through a.resolvedThrough a'.resolvedThrough

section Kept

variable {free free' : Prop} {a a' a'' : Association} {given : Value}
  {found found' found'' : Option ModelRef}

theorem TargetKept.refl : TargetKept free given found found := ⟨.inl rfl, fun _ _ h => h⟩

theorem TargetKept.trans (h : TargetKept free given found found')
    (h' : TargetKept free given found' found'') : TargetKept free given found found'' where
  same := by
    rcases h'.same with hsame | hfree
    · exact h.same.imp_left hsame.trans
    · exact .inr hfree
  of_class ref hgiven hfound := h'.of_class ref hgiven (h.of_class ref hgiven hfound)

theorem TargetKept.mono (hsub : free → free') (h : TargetKept free given found found') :
    TargetKept free' given found found' := ⟨h.same.imp_right hsub, h.of_class⟩

theorem AssociationKept.refl : AssociationKept free a a := ⟨rfl, rfl, rfl, .refl, .refl⟩

theorem AssociationKept.trans (h : AssociationKept free a a') (h' : AssociationKept free a' a'') :
    AssociationKept free a a'' where
  kind_eq := h'.kind_eq.trans h.kind_eq
  target_eq := h'.target_eq.trans h.target_eq
  foreignKey_eq := h'.foreignKey_eq.trans h.foreignKey_eq
  target := h.target.trans (h.target_eq ▸ h'.target)
  through := h.through.trans (h.kind_eq ▸ h'.through)

theorem AssociationKept.mono (hsub : free → free') (h : AssociationKept free a a') :
    AssociationKept free' a a' := { h with target := h.target.mono hsub, through := h.through.mono hsub }

/-- A new name changes nothing about the targets. -/
theorem AssociationKept.renamed {name : Value} : AssociationKept free a { a with name } :=
  ⟨rfl, rfl, rfl, .refl, .refl⟩

end Kept

/-! ## 2. Classes -/

/-- A class later: its table may have grown, and it may be finalized. -/
def Model.ModelClass.later (c : ModelClass) (added : List (Value × Nat)) (flag : Bool) :
    ModelClass :=
  { c with mapper := c.mapper.map fun m =>
      { m with associations := m.associations ++ added, finalized := m.finalized || flag } }

@[simp] theorem Model.ModelClass.later_ref (c : ModelClass) (added : List (Value × Nat))
    (flag : Bool) : (c.later added flag).ref = c.ref := rfl

@[simp] theorem Model.ModelClass.later_ancestry (c : ModelClass) (added : List (Value × Nat))
    (flag : Bool) : (c.later added flag).ancestry = c.ancestry := rfl

@[simp] theorem Model.ModelClass.later_attributes (c : ModelClass) (added : List (Value × Nat))
    (flag : Bool) : (c.later added flag).attributes = c.attributes := rfl

@[simp] theorem Model.ModelClass.later_nil (c : ModelClass) : c.later [] false = c := by
  obtain ⟨_, _, _, mapper, _⟩ := c
  cases mapper <;> simp [later]

@[simp] theorem Model.ModelClass.later_later (c : ModelClass) (first second : List (Value × Nat))
    (flag flag' : Bool) :
    (c.later first flag).later second flag' = c.later (first ++ second) (flag || flag') := by
  obtain ⟨_, _, _, mapper, _⟩ := c
  cases mapper <;> simp [later, Bool.or_assoc]

theorem Model.ModelClass.declaring_eq_later (c : ModelClass) (added : List (Value × Nat)) :
    c.declaring added = c.later added false := by
  obtain ⟨_, _, _, mapper, _⟩ := c
  cases mapper <;> simp [later, declaring]

namespace World

variable {id : Nat} {S S' : Nat → Prop} {w t u w' : World}

/-- An association is in the table of a class. -/
def InTable (id : Nat) (w : World) (index : Nat) : Prop :=
  ∃ m, w.registry.mapperOf id = .ok m ∧ ∃ entry ∈ m.associations, entry.2 = index

/-- A class counts as finalized. -/
def Finalized (id : Nat) (w : World) : Prop :=
  ∃ m, w.registry.mapperOf id = .ok m ∧ m.finalized = true

instance (id : Nat) (w : World) (index : Nat) : Decidable (InTable id w index) :=
  match h : w.registry.mapperOf id with
  | .error _ => isFalse fun ⟨_, hm, _⟩ => by cases h.symm.trans hm
  | .ok m => decidable_of_iff (∃ entry ∈ m.associations, entry.2 = index)
      ⟨fun hentry => ⟨m, h, hentry⟩,
        fun ⟨_, hm, hentry⟩ => Except.ok.inj (h.symm.trans hm) ▸ hentry⟩

instance (id : Nat) (w : World) : Decidable (Finalized id w) :=
  match h : w.registry.mapperOf id with
  | .error _ => isFalse fun ⟨_, hm, _⟩ => by cases h.symm.trans hm
  | .ok m => decidable_of_iff (m.finalized = true)
      ⟨fun hflag => ⟨m, h, hflag⟩, fun ⟨_, hm, hflag⟩ => Except.ok.inj (h.symm.trans hm) ▸ hflag⟩

/-- Two worlds one after the other, with the same classes that have at least what they had.  What
was found for an association may differ only where a class has it that was not finalized before. -/
structure Steady (w w' : World) : Prop where
  classes_le : w.registry.classes.length ≤ w'.registry.classes.length
  classAt_eq : ∀ id, id < w.registry.classes.length →
    ∃ added flag, w'.registry.classAt id = (w.registry.classAt id).later added flag
  associations_le : w.registry.associations.length ≤ w'.registry.associations.length
  kept : ∀ index, index < w.registry.associations.length →
    AssociationKept (∃ other, InTable other w' index ∧ ¬Finalized other w)
      (w.registry.associationAt index) (w'.registry.associationAt index)

theorem lt_of_mapperOf {r : Registry} {m : Mapper} (h : r.mapperOf id = .ok m) :
    id < r.classes.length := by
  rcases Nat.lt_or_ge id r.classes.length with hlt | hout
  · exact hlt
  · rw [Registry.mapperOf, Registry.classAt, List.getElem?_eq_none hout] at h
    cases h

theorem Steady.mapperOf_eq {m : Mapper} (h : Steady w w')
    (hm : w.registry.mapperOf id = .ok m) : ∃ added flag, w'.registry.mapperOf id =
      .ok { m with associations := m.associations ++ added, finalized := m.finalized || flag } := by
  obtain ⟨added, flag, hclass⟩ := h.classAt_eq id (lt_of_mapperOf hm)
  rw [Registry.mapperOf_eq_ok] at hm
  exact ⟨added, flag, by rw [Registry.mapperOf_eq_ok, hclass, Model.ModelClass.later, hm]; rfl⟩

theorem exists_of_attribute? {r : Registry} {name : String} {a : Model.ClassAttribute}
    (h : r.attribute? id name = some a) :
    ∃ ancestor ∈ (r.classAt id).ancestry, (name, a) ∈ (r.classAt ancestor).attributes := by
  obtain ⟨ancestor, hmem, hfound⟩ := List.exists_of_findSome?_eq_some
    (f := fun ancestor => (r.classAt ancestor).attributes.get? name) h
  exact ⟨ancestor, hmem, Dictionary.mem_of_get? hfound⟩

/-- A class has the attributes later that it has now. -/
theorem Steady.attribute?_eq (h : Steady w w') (hid : id < w.registry.classes.length)
    (hancestry : ∀ ancestor ∈ (w.registry.classAt id).ancestry, ancestor < w.registry.classes.length)
    (name : String) : w'.registry.attribute? id name = w.registry.attribute? id name := by
  obtain ⟨added, flag, hclass⟩ := h.classAt_eq id hid
  rw [Registry.attribute?, Registry.attribute?, hclass, Model.ModelClass.later_ancestry]
  show List.findSome? _ _ = List.findSome? _ _
  generalize (w.registry.classAt id).ancestry = ancestors at hancestry
  induction ancestors with
  | nil => rfl
  | cons ancestor rest ih =>
    obtain ⟨hfirst, hrest⟩ := List.forall_mem_cons.mp hancestry
    obtain ⟨added', flag', hancestor⟩ := h.classAt_eq ancestor hfirst
    rw [List.findSome?_cons, List.findSome?_cons, ih hrest, hancestor,
      Model.ModelClass.later_attributes]

/-- While no class is added, every class is what it was, but for what its table has got. -/
theorem Steady.classAt_of_length (h : Steady w w')
    (hlength : w'.registry.classes.length = w.registry.classes.length) (id : Nat) :
    ∃ added flag, w'.registry.classAt id = (w.registry.classAt id).later added flag := by
  by_cases hid : id < w.registry.classes.length
  · exact h.classAt_eq id hid
  · refine ⟨[], false, ?_⟩
    rw [Model.ModelClass.later_nil, Registry.classAt, Registry.classAt,
      List.getElem?_eq_none (by omega), List.getElem?_eq_none (by omega)]

theorem Steady.attribute?_of_length (h : Steady w w')
    (hlength : w'.registry.classes.length = w.registry.classes.length) (id : Nat) (name : String) :
    w'.registry.attribute? id name = w.registry.attribute? id name := by
  have hclass (id : Nat) : (w'.registry.classAt id).ancestry = (w.registry.classAt id).ancestry ∧
      (w'.registry.classAt id).attributes = (w.registry.classAt id).attributes := by
    obtain ⟨added, flag, hlater⟩ := h.classAt_of_length hlength id
    rw [hlater]
    exact ⟨rfl, rfl⟩
  simp only [Registry.attribute?, Registry.inheritedAttribute?, (hclass _).1, (hclass _).2]

/-- While no class is added, no class gets a table. -/
theorem Steady.mapperOf_of_length {m : Mapper} (h : Steady w w')
    (hlength : w'.registry.classes.length = w.registry.classes.length)
    (hm : w'.registry.mapperOf id = .ok m) : ∃ m', w.registry.mapperOf id = .ok m' := by
  obtain ⟨added, flag, hlater⟩ := h.classAt_of_length hlength id
  rw [Registry.mapperOf_eq_ok, hlater, Model.ModelClass.later, Option.map_eq_some_iff] at hm
  obtain ⟨m', hm', -⟩ := hm
  exact ⟨m', Registry.mapperOf_eq_ok.mpr hm'⟩

theorem Steady.ref_eq (h : Steady w w') (hid : id < w.registry.classes.length) :
    (w'.registry.classAt id).ref = (w.registry.classAt id).ref := by
  obtain ⟨added, flag, hclass⟩ := h.classAt_eq id hid
  rw [hclass, Model.ModelClass.later_ref]

theorem Steady.inTable {index : Nat} (h : Steady w w') (hin : InTable id w index) :
    InTable id w' index := by
  obtain ⟨m, hm, entry, hentry, hindex⟩ := hin
  obtain ⟨added, flag, hm'⟩ := h.mapperOf_eq hm
  exact ⟨_, hm', entry, List.mem_append_left _ hentry, hindex⟩

theorem Steady.finalized (h : Steady w w') (hfinal : Finalized id w) : Finalized id w' := by
  obtain ⟨m, hm, hflag⟩ := hfinal
  obtain ⟨added, flag, hm'⟩ := h.mapperOf_eq hm
  exact ⟨_, hm', by simp [hflag]⟩

instance : IsPreorder World Steady where
  refl w := ⟨Nat.le_refl _, fun id _ => ⟨[], false, by simp⟩, Nat.le_refl _, fun _ _ => .refl⟩
  trans w t w' h h' := by
    refine ⟨Nat.le_trans h.classes_le h'.classes_le, fun id hid => ?_,
      Nat.le_trans h.associations_le h'.associations_le, fun index hindex => ?_⟩
    · obtain ⟨added, flag, hclass⟩ := h.classAt_eq id hid
      obtain ⟨more, flag', hclass'⟩ := h'.classAt_eq id (Nat.lt_of_lt_of_le hid h.classes_le)
      exact ⟨added ++ more, flag || flag', by rw [hclass', hclass, Model.ModelClass.later_later]⟩
    · refine .trans ((h.kept index hindex).mono ?_)
        ((h'.kept index (Nat.lt_of_lt_of_le hindex h.associations_le)).mono ?_)
      · rintro ⟨other, hin, hnot⟩
        exact ⟨other, h'.inTable hin, hnot⟩
      · rintro ⟨other, hin, hnot⟩
        exact ⟨other, hin, fun hfinal => hnot (h.finalized hfinal)⟩

theorem Steady.of_registry (h : w'.registry = w.registry) : Steady w w' := by
  have hrefl := refl_of Steady w
  exact ⟨h ▸ hrefl.classes_le, h ▸ hrefl.classAt_eq, h ▸ hrefl.associations_le,
    fun index hindex => by rw [h]; exact .refl⟩

/-! ## 3. Defining -/

theorem Steady.of_extends (h : Registry.Extends w.registry w'.registry) : Steady w w' where
  classes_le := h.classes.length_le
  classAt_eq id hid := ⟨[], false, by rw [h.classAt_eq hid, Model.ModelClass.later_nil]⟩
  associations_le := h.associations_le
  kept index hindex := by
    obtain ⟨name, hname⟩ := h.associationAt_eq index hindex
    rw [hname]
    exact .renamed

theorem addClass_extends {c : ModelClass} {r : Registry} (h : w.addClass c = .ok r) :
    Registry.Extends w.registry r := by
  rw [addClass] at h
  split at h
  · obtain ⟨tableName, -, h⟩ := bind_eq_ok.mp h
    exact Registry.addModel_extends h
  · cases h
    exact Registry.addClass_extends w.registry c

/-- Defining a class adds to the registry and leaves the entities alone. -/
theorem define_extends (d : Definition) (w : World) :
    ((define d).runOn w).2.entities = w.entities ∧
      Registry.Extends w.registry ((define d).runOn w).2.registry := by
  rw [define_runOn]
  cases hnew : w.registry.newClass d with
  | error fault => exact ⟨rfl, refl_of Registry.Extends w.registry⟩
  | ok declared =>
    obtain ⟨r, c⟩ := declared
    have hextends := Registry.newClass_extends hnew
    cases hadd : ({ w with registry := r } : World).addClass c with
    | error fault =>
      simpa only [hadd, true_and] using hextends
    | ok extended =>
      have hadded : Registry.Extends r extended := addClass_extends hadd
      have hnamed : Registry.Extends extended (extended.nameClass d.key c.ref.id) := .of_eq rfl rfl
      simpa only [hadd, true_and] using
        trans_of Registry.Extends hextends (trans_of Registry.Extends hadded hnamed)

/-! ## 4. Finding targets -/

/-- One class may get associations, and no other class changes.  What was found for the associations
outside of `S` stays. -/
structure Resolves (id : Nat) (S : Nat → Prop) (w w' : World) : Prop where
  declares : Declares id w w'
  entities_eq : w'.entities = w.entities
  classes_eq : w'.registry.classes.length = w.registry.classes.length
  associations_le : w.registry.associations.length ≤ w'.registry.associations.length
  kept : ∀ index, index < w.registry.associations.length →
    AssociationKept (S index) (w.registry.associationAt index) (w'.registry.associationAt index)

/-- What is done to associations that are new does not count. -/
theorem Resolves.then_new (h : Resolves id S w t) (h' : Resolves id S' t w')
    (hnew : ∀ index, index < w.registry.associations.length → S' index → S index) :
    Resolves id S w w' where
  declares := trans_of (Declares id) h.declares h'.declares
  entities_eq := h'.entities_eq.trans h.entities_eq
  classes_eq := h'.classes_eq.trans h.classes_eq
  associations_le := Nat.le_trans h.associations_le h'.associations_le
  kept index hindex := (h.kept index hindex).trans
    ((h'.kept index (Nat.lt_of_lt_of_le hindex h.associations_le)).mono (hnew index hindex))

instance (id : Nat) (S : Nat → Prop) : IsPreorder World (Resolves id S) where
  refl w := ⟨refl_of (Declares id) w, rfl, rfl, Nat.le_refl _, fun _ _ => .refl⟩
  trans _ _ _ h h' := h.then_new h' fun _ _ hS => hS

theorem Resolves.mono (hsub : ∀ index, S index → S' index) (h : Resolves id S w w') :
    Resolves id S' w w' :=
  { h with kept := fun index hindex => (h.kept index hindex).mono (hsub index) }

theorem Resolves.of_still (h : Still w w') : Resolves id S w w' where
  declares := ⟨[], .of_same (congrArg Registry.classes h.registry_eq)⟩
  entities_eq := h.entities_eq
  classes_eq := congrArg (fun r => r.classes.length) h.registry_eq
  associations_le := h.registry_eq ▸ Nat.le_refl _
  kept index _ := by
    rw [h.registry_eq]
    exact .refl

theorem resolves_of_still {α : Type} {action : Action World α} (h : action.Obeys Still) :
    action.Obeys (Resolves id S) := h.mono fun _ _ => .of_still

/-- A class that was given as the target is found. -/
theorem resolveTarget_model {owner ref found : ModelRef}
    (h : w.resolveTarget owner (.model ref) = .ok found) : found = ref := by
  rw [resolveTarget] at h
  change (if _ then _ else _) = _ at h
  split at h <;> cases h
  rfl

/-- What is found for a target. -/
theorem targetKept_of_resolveTarget {free : Prop} {owner found : ModelRef} {given : Value}
    {before : Option ModelRef} (hfree : free) (h : w.resolveTarget owner given = .ok found) :
    TargetKept free given before (some found) where
  same := .inr hfree
  of_class ref hgiven _ := by
    subst hgiven
    rw [resolveTarget_model h]

theorem updateAssociation_length (index : Nat) (change : Association → Association) (w : World) :
    ((updateAssociation index change).runOn w).2.registry.associations.length =
      w.registry.associations.length := List.length_set

theorem updateAssociation_resolves {index : Nat} {change : Association → Association}
    (h : index < w.registry.associations.length → AssociationKept (S index)
      (w.registry.associationAt index) (change (w.registry.associationAt index))) :
    Resolves id S w ((updateAssociation index change).runOn w).2 where
  declares := ⟨[], .of_same (updateAssociation_same index change w)⟩
  entities_eq := rfl
  classes_eq := rfl
  associations_le := Nat.le_of_eq (updateAssociation_length index change w).symm
  kept other hother := by
    show AssociationKept (S other) _ (((w.registry.associations.set index _)[other]?).getD default)
    by_cases hindex : index = other
    · subst hindex
      rw [List.getElem?_set_self hother]
      exact h hother
    · rw [List.getElem?_set_ne hindex]
      exact .refl

theorem resolveAssociation_resolves (owner : ModelRef) {index : Nat} (hindex : S index) :
    (resolveAssociation owner index).Obeys (Resolves id S) := by
  intro w
  rw [resolveAssociation, Action.runOn_bind_ok (Action.runOn_get w), Action.runOn_bind,
    runOn_reading]
  cases htarget : w.resolveTarget owner (w.registry.associationAt index).target with
  | error fault => exact refl_of (Resolves id S) w
  | ok found =>
    let change (a : Association) : Association := { a with resolved := some found }
    have htargets : Resolves id S w ((updateAssociation index change).runOn w).2 :=
      updateAssociation_resolves fun _ =>
        ⟨rfl, rfl, rfl, targetKept_of_resolveTarget hindex htarget, .refl⟩
    have hlength := updateAssociation_length index change w
    obtain ⟨t, ht⟩ : ∃ t, (updateAssociation index change).runOn w = (.ok (), t) := ⟨_, rfl⟩
    rw [ht] at htargets hlength
    dsimp only
    rw [Action.runOn_bind_ok ht]
    cases hkind : (w.registry.associationAt index).kind with
    | belongsToMany through otherKey key =>
      dsimp only
      rw [Action.runOn_bind, runOn_reading]
      cases hthrough : t.resolveTarget owner through with
      | error fault => exact htargets
      | ok joining =>
        refine trans_of (Resolves id S) htargets (updateAssociation_resolves fun hin =>
          ⟨rfl, rfl, rfl, .refl, ?_⟩)
        rw [(htargets.kept index (hlength ▸ hin)).kind_eq, hkind]
        exact targetKept_of_resolveTarget hindex hthrough
    | _ => exact htargets

/-! ## 5. Declaring -/

theorem addAssociation_resolves (id : Nat) (name : Value) (a : Association) :
    (addAssociation id name a).Obeys (Resolves id S) := by
  refine .bind (resolves_of_still (storeKey_still name)) fun placed =>
    .bind (resolves_of_still (storeAssociation_still _)) fun a w => ?_
  let index := (w.registry.addAssociation a).2
  let added : World := { w with registry := (w.registry.addAssociation a).1 }
  have hextends := Registry.addAssociation_extends w.registry a
  have hclass := updateMapper_classAt id
    (fun m => { m with associations := m.associations ++ [(placed, index)] }) added
  refine ⟨⟨[(placed, index)], (hclass id).trans (if_pos rfl), fun other hother =>
    (hclass other).trans (if_neg hother)⟩, rfl, List.length_set, hextends.associations_le,
    fun other hin => ?_⟩
  obtain ⟨known, hknown⟩ := hextends.associationAt_eq other hin
  show AssociationKept _ _ ((w.registry.addAssociation a).1.associationAt other)
  rw [hknown]
  exact .renamed

/-- An association that is added has the number that comes next. -/
theorem addAssociation_index {name : Value} {a : Association} {index : Nat}
    (hrun : (addAssociation id name a).runOn w = (.ok index, t)) :
    index = w.registry.associations.length := by
  obtain ⟨placed, s, hplaced, hrun⟩ := Action.runOn_bind_eq_ok.mp hrun
  obtain ⟨stored, u, hstored, hrun⟩ := Action.runOn_bind_eq_ok.mp hrun
  have hstill := trans_of Still ((storeKey_still name).of_run hplaced)
    ((storeAssociation_still _).of_run hstored)
  have hindex : u.registry.associations.length = index :=
    Except.ok.inj (congrArg Prod.fst hrun)
  rw [← hindex, hstill.registry_eq]

/-- The targets of an association that is declared are found without touching any other. -/
theorem declare_resolves (id : Nat) (word : String) (arguments : Dictionary Value) :
    (declare id word arguments).Obeys (Resolves id S) := by
  have hadd (owner : ModelRef) (name : Value) (a : Association) (m : Mapper) :
      (do
        let index ← addAssociation id name a
        if m.finalized then resolveAssociation owner index
        return index : Action World Nat).Obeys (Resolves id S) := by
    intro w
    have hadded := addAssociation_resolves (S := S) id name a w
    rw [Action.runOn_bind]
    rcases hrun : (addAssociation id name a).runOn w with ⟨fault | index, t⟩ <;> rw [hrun] at hadded
    · exact hadded
    · have hfound : (do
          if m.finalized then resolveAssociation owner index
          return index : Action World Nat).Obeys (Resolves id (· = index)) :=
        .ite (.bind (resolveAssociation_resolves owner rfl) fun _ => .pure index) (.pure index)
      refine hadded.then_new (hfound t) ?_
      rintro _ hold rfl
      exact absurd hold (Nat.not_lt_of_le (Nat.le_of_eq (addAssociation_index hrun).symm))
  rw [declare]
  split
  · exact .bind .get fun _ => .bind (.ofExcept _) fun _ =>
      .bind (resolves_of_still (reading_still _)) fun m => .bind .get fun _ =>
      .bind (.ofExcept _) fun _ => hadd _ _ _ m
  · exact .throw _

theorem runDeclaration_resolves (id : Nat) (d : Declaration) :
    (runDeclaration id d).Obeys (Resolves id S) :=
  .bind (resolves_of_still (reading_still _)) fun _ =>
    .bind (resolves_of_still (reading_still _)) fun _ => .discard (declare_resolves id d.word _)

/-! ## 6. Finalizing -/

/-- Finding the targets of a class touches what is in its table. -/
theorem findTargets_resolves (id : Nat) (owner : ModelRef) (w : World) :
    Resolves id (InTable id w) w ((findTargets id owner).runOn w).2 := by
  rw [findTargets, Action.runOn_bind, runOn_reading]
  cases hm : w.registry.mapperOf id with
  | error fault =>
    rw [mapper, hm]
    exact refl_of (Resolves id (InTable id w)) w
  | ok m =>
    rw [mapper, hm]
    show Resolves id _ w
      ((m.associations.forM fun entry => resolveAssociation owner entry.2).runOn w).2
    have hall : ∀ table : List (Value × Nat), (∀ entry ∈ table, entry ∈ m.associations) →
        (table.forM fun entry => resolveAssociation owner entry.2).Obeys
          (Resolves id (InTable id w)) := by
      intro table
      induction table with
      | nil => exact fun _ => .pure _
      | cons entry rest ih =>
        intro hsub
        exact .bind (resolveAssociation_resolves owner ⟨m, hm, entry, hsub entry (by simp), rfl⟩)
          fun _ => ih fun other hother => hsub other (List.mem_cons_of_mem entry hother)
    exact hall m.associations (fun _ h => h) w

theorem Declares.inTable {index : Nat} (h : Declares id w w') (hin : InTable id w index) :
    InTable id w' index := by
  obtain ⟨m, hm, entry, hentry, hindex⟩ := hin
  obtain ⟨added, hdeclared⟩ := h
  exact ⟨_, mapperOf_declared hdeclared hm, entry, List.mem_append_left _ hentry, hindex⟩

/-- The run of a hook touches what is in the table of its class afterwards. -/
theorem runHook_resolves (id : Nat) (w : World) :
    Resolves id (InTable id ((runHook id).runOn w).2) w ((runHook id).runOn w).2 := by
  rw [runHook_runOn]
  have hhook {S : Nat → Prop} : ((hookOf w.registry id).forM (runDeclaration id)).Obeys
      (Resolves id S) := .forM fun d => runDeclaration_resolves id d
  rw [Action.runOn_bind]
  rcases hrun : ((hookOf w.registry id).forM (runDeclaration id)).runOn w with ⟨fault | _, t⟩
  · exact hhook.of_run hrun
  · have hfound := findTargets_resolves id (w.registry.classAt id).ref t
    exact trans_of (Resolves id _) (hhook.of_run hrun)
      (hfound.mono fun _ hin => hfound.declares.inTable hin)

theorem Resolves.steady (h : Resolves id S w w') (hS : ∀ index, S index →
    ∃ other, InTable other w' index ∧ ¬Finalized other w) : Steady w w' where
  classes_le := Nat.le_of_eq h.classes_eq.symm
  classAt_eq other _ := by
    obtain ⟨added, hdeclared⟩ := h.declares
    by_cases hother : other = id
    · subst hother
      exact ⟨added, false, by rw [hdeclared.own, Model.ModelClass.declaring_eq_later]⟩
    · exact ⟨[], false, by rw [hdeclared.others other hother, Model.ModelClass.later_nil]⟩
  associations_le := h.associations_le
  kept index hindex := (h.kept index hindex).mono (hS index)

/-- Classes were defined, or something was found for their associations, and no entity was
touched. -/
structure Registers (w w' : World) : Prop extends Steady w w' where
  entities_eq : w'.entities = w.entities

instance : IsPreorder World Registers where
  refl w := ⟨refl_of Steady w, rfl⟩
  trans _ _ _ h h' :=
    ⟨trans_of Steady h.toSteady h'.toSteady, h'.entities_eq.trans h.entities_eq⟩

theorem Registers.of_still (h : Still w w') : Registers w w' :=
  ⟨.of_registry h.registry_eq, h.entities_eq⟩

theorem registers_of_still {α : Type} {action : Action World α} (h : action.Obeys Still) :
    action.Obeys Registers := h.mono fun _ _ => .of_still

theorem define_registers (d : Definition) : (define d).Obeys Registers := fun w =>
  ⟨.of_extends (define_extends d w).2, (define_extends d w).1⟩

theorem defineShared_registers (d : Definition) : (defineShared d).Obeys Registers := by
  rw [defineShared_eq]
  exact .bind (registers_of_still (storeSettings_still d.settings)) fun _ =>
    .bind (registers_of_still (storeAttributes_still d.attributes)) fun _ => define_registers _

theorem declare_registers (id : Nat) (word : String) (arguments : Dictionary Value) :
    (declare id word arguments).Obeys Registers := fun w =>
  have h := declare_resolves (S := fun _ => False) id word arguments w
  ⟨h.steady nofun, h.entities_eq⟩

theorem flagged_classAt (id : Nat) (w : World) :
    (flagged id true w).registry.classAt id = (w.registry.classAt id).later [] true := by
  rw [flagged, updateMapper_classAt, if_pos rfl]
  cases hm : (w.registry.classAt id).mapper <;> simp [Model.ModelClass.later, hm]

/-- After the hook of a class that was not finalized, with its flag set either way. -/
theorem steady_of_hook {m : Mapper} (flag : Bool) (hm : w.registry.mapperOf id = .ok m)
    (hunflagged : m.finalized = false) (hhook : Resolves id (InTable id t) (flagged id true w) t)
    (hown : ∀ added, t.registry.classAt id = (w.registry.classAt id).later added true →
      u.registry.classAt id = (w.registry.classAt id).later added flag)
    (hothers : ∀ other, other ≠ id → u.registry.classAt other = t.registry.classAt other)
    (hclasses : u.registry.classes.length = t.registry.classes.length)
    (hassociations : u.registry.associations = t.registry.associations) : Steady w u := by
  obtain ⟨added, hdeclared⟩ := hhook.declares
  have htable : t.registry.classAt id = (w.registry.classAt id).later added true := by
    rw [hdeclared.own, flagged_classAt, Model.ModelClass.declaring_eq_later]
    exact Model.ModelClass.later_later ..
  have hflagged : (flagged id true w).registry.classes.length = w.registry.classes.length :=
    List.length_set
  rw [Registry.mapperOf_eq_ok] at hm
  refine ⟨Nat.le_of_eq (by rw [hclasses, hhook.classes_eq, hflagged]), fun other _ => ?_,
    hassociations ▸ hhook.associations_le, fun index hindex => ?_⟩
  · by_cases hother : other = id
    · exact hother ▸ ⟨added, flag, hown added htable⟩
    · refine ⟨[], false, ?_⟩
      rw [hothers other hother, hdeclared.others other hother, flagged, updateMapper_classAt,
        if_neg hother, Model.ModelClass.later_nil]
  · have hkept := hhook.kept index hindex
    have hsame : u.registry.associationAt index = t.registry.associationAt index := by
      rw [Registry.associationAt, hassociations, Registry.associationAt]
    have hlater : u.registry.mapperOf id = .ok { m with
        associations := m.associations ++ added, finalized := m.finalized || flag } := by
      rw [Registry.mapperOf_eq_ok, hown added htable, Model.ModelClass.later, hm]
      rfl
    rw [hsame]
    refine hkept.mono ?_
    rintro ⟨m', hm', hentry⟩
    rw [Registry.mapperOf_eq_ok, htable, Model.ModelClass.later, hm] at hm'
    obtain rfl := Option.some.inj hm'
    refine ⟨id, ⟨_, hlater, hentry⟩, ?_⟩
    rintro ⟨m'', hm'', hfinal⟩
    rw [Registry.mapperOf_eq_ok, hm] at hm''
    obtain rfl := Option.some.inj hm''
    rw [hunflagged] at hfinal
    cases hfinal

theorem finalize_registers (id : Nat) : (finalize id).Obeys Registers := by
  intro w
  cases hm : w.registry.mapperOf id with
  | error fault =>
    rw [finalize, Action.runOn_bind, runOn_reading, mapper, hm]
    exact refl_of Registers w
  | ok m =>
    rw [finalize_runOn hm]
    cases hunflagged : m.finalized with
    | true => exact refl_of Registers w
    | false =>
      rw [if_neg (by decide)]
      have hhook := runHook_resolves id (flagged id true w)
      rcases hrun : (runHook id).runOn (flagged id true w) with ⟨fault | _, t⟩ <;>
        rw [hrun] at hhook <;> dsimp only
      · refine ⟨steady_of_hook false hm hunflagged hhook (fun added hown => ?_)
          (fun other hother => ?_) List.length_set rfl, hhook.entities_eq⟩
        · rw [Registry.mapperOf_eq_ok] at hm
          rw [flagged, updateMapper_classAt, if_pos rfl, hown]
          simp [Model.ModelClass.later, hm, hunflagged]
        · rw [flagged, updateMapper_classAt, if_neg hother]
      · have hsteady : Registers w t :=
          ⟨steady_of_hook true hm hunflagged hhook (fun _ hown => hown)
            (fun _ _ => rfl) rfl rfl, hhook.entities_eq⟩
        have hreport : (reportFinalized id).Obeys Still :=
          .bind (reading_still _) fun _ => debug_still _ _
        exact trans_of Registers hsteady (.of_still (hreport t))

/-- Finalizing a class adds none. -/
theorem finalize_length (id : Nat) (w : World) :
    ((finalize id).runOn w).2.registry.classes.length = w.registry.classes.length := by
  cases hm : w.registry.mapperOf id with
  | error fault =>
    rw [finalize, Action.runOn_bind, runOn_reading, mapper, hm]
    rfl
  | ok m =>
    rw [finalize_runOn hm]
    split
    · rfl
    have hhook := (runHook_resolves id (flagged id true w)).classes_eq
    have hflagged (flag : Bool) (w : World) :
        (flagged id flag w).registry.classes.length = w.registry.classes.length := List.length_set
    rw [hflagged] at hhook
    rcases hrun : (runHook id).runOn (flagged id true w) with ⟨fault | _, t⟩ <;> rw [hrun] at hhook
    · exact (hflagged false t).trans hhook
    · have hreport : (reportFinalized id).Obeys Still :=
        .bind (reading_still _) fun _ => debug_still _ _
      exact (congrArg (fun r => r.classes.length) (hreport t).registry_eq).trans hhook

theorem associationOf_registers (id : Nat) (name : Value) :
    (associationOf id name).Obeys Registers := by
  refine .bind (finalize_registers id) fun _ => .bind .get fun _ => .bind (.ofExcept _) fun _ =>
    .guarded fun _ => ?_
  split
  · exact .pure _
  · exact .throw _

/-! ## 7. What finalizing leaves alone -/

/-- A relation that holds along what leaves entities and classes alone, and along changes of the
classes that leave the columns alone. -/
structure AlongFinalizing (R : World → World → Prop) : Prop where
  still : ∀ w w', Still w w' → R w w'
  registry : ∀ w r, r.columns = w.registry.columns → R w { w with registry := r }

section AlongFinalizing

variable {R : World → World → Prop} (h : AlongFinalizing R)
include h

theorem modifyRegistry_along {change : Registry → Registry}
    (hchange : ∀ r, (change r).columns = r.columns) : (modifyRegistry change).Obeys R :=
  fun w => h.registry w _ (hchange w.registry)

theorem reading_along {α : Type} (read : World → Except Fault α) : (reading read).Obeys R :=
  (reading_still read).mono h.still

theorem updateMapper_along (id : Nat) (change : Mapper → Mapper) :
    (updateMapper id change).Obeys R := modifyRegistry_along h fun _ => rfl

variable [IsPreorder World R]

theorem resolveAssociation_along (owner : ModelRef) (index : Nat) :
    (resolveAssociation owner index).Obeys R := by
  have hupdate (change : Association → Association) : (updateAssociation index change).Obeys R :=
    modifyRegistry_along h fun _ => rfl
  refine .bind .get fun _ => .bind (reading_along h _) fun _ => .bind (hupdate _) fun _ => ?_
  split
  · exact .bind (reading_along h _) fun _ => hupdate _
  · exact .pure _

theorem addAssociation_along (id : Nat) (name : Value) (a : Association) :
    (addAssociation id name a).Obeys R := by
  refine .bind ((storeKey_still name).mono h.still) fun placed =>
    .bind ((storeAssociation_still _).mono h.still) fun a w => ?_
  let added : World := { w with registry := (w.registry.addAssociation a).1 }
  exact trans_of R (h.registry w _ rfl : R w added) (updateMapper_along h id (fun m => { m with
    associations := m.associations ++ [(placed, w.registry.associations.length)] }) added)

theorem declare_along (id : Nat) (word : String) (arguments : Dictionary Value) :
    (declare id word arguments).Obeys R := by
  rw [declare]
  split
  · exact .bind .get fun _ => .bind (.ofExcept _) fun _ => .bind (reading_along h _) fun _ =>
      .bind .get fun _ => .bind (.ofExcept _) fun _ => .bind (addAssociation_along h id _ _)
      fun index => .ite (.bind (resolveAssociation_along h _ index) fun _ => .pure _) (.pure _)
  · exact .throw _

theorem runHook_along (id : Nat) : (runHook id).Obeys R :=
  .bind .get fun _ => .bind (.forM fun d => .bind (reading_along h _) fun _ =>
    .bind (reading_along h _) fun _ => .discard (declare_along h id d.word _)) fun _ =>
    .bind (reading_along h _) fun _ => .forM fun _ => resolveAssociation_along h _ _

theorem finalize_along (id : Nat) : (finalize id).Obeys R := by
  refine .bind (reading_along h _) fun _ => .ite (.pure _) ?_
  refine .bind (updateMapper_along h id _) fun _ => .bind (.attempt (runHook_along h id))
    fun tried => ?_
  cases tried with
  | ok _ => exact .bind (reading_along h _) fun _ => (debug_still _ _).mono h.still
  | error fault => exact .bind (updateMapper_along h id _) fun _ => .throw _

theorem associationOf_along (id : Nat) (name : Value) : (associationOf id name).Obeys R := by
  refine .bind (finalize_along h id) fun _ => .bind .get fun _ => .bind (.ofExcept _) fun _ =>
    .guarded fun _ => ?_
  split
  · exact .pure _
  · exact .throw _

end AlongFinalizing

/-- What lies on the shelf stays there. -/
def Shelves (w w' : World) : Prop := w.shelf <+: w'.shelf

instance : IsPreorder World Shelves where
  refl _ := List.prefix_rfl
  trans _ _ _ h h' := List.IsPrefix.trans h h'

theorem along_shelves : AlongFinalizing Shelves where
  still _ _ := Still.shelf_prefix
  registry _ _ _ := List.prefix_rfl

/-- The columns of the classes stay as they are. -/
def KeepsColumns (w w' : World) : Prop := w'.registry.columns = w.registry.columns

instance : IsPreorder World KeepsColumns where
  refl _ := rfl
  trans _ _ _ h h' := Eq.trans h' h

theorem along_keepsColumns : AlongFinalizing KeepsColumns where
  still _ _ h := congrArg Registry.columns h.registry_eq
  registry _ _ h := h

end World
end RowMapper
