import RowMapper.Proofs.World.Call
import RowMapper.Proofs.World.Still

/-!
# Defining and finalizing ask nothing

Definitions of classes, declarations of associations and finalizing change the registry and the
shelf.  They send no statement, and they keep a world sound.
-/
namespace RowMapper.World

open Model (Association AssociationKind AttributeBody Declaration Definition Mapper Registry)

variable {kinds : List CallKind}

/-! ## 1. Defining -/

theorem addClass_numbered {w : World} {c : Model.ModelClass} {r : Registry}
    (hadd : w.addClass c = .ok r) (h : w.registry.Numbered)
    (hc : c.ref.id = w.registry.classes.length) : r.Numbered := by
  rw [addClass] at hadd
  split at hadd
  · obtain ⟨tableName, -, hadd⟩ := bind_eq_ok.mp hadd
    exact Registry.addModel_numbered hadd h hc
  · cases hadd
    exact Registry.addClass_numbered h hc

theorem addClass_length {w : World} {c : Model.ModelClass} {r : Registry} (h : w.addClass c = .ok r) :
    r.classes.length = w.registry.classes.length + 1 := by
  rw [addClass] at h
  split at h
  · obtain ⟨tableName, -, h⟩ := bind_eq_ok.mp h
    obtain ⟨keyed, hkeyed, h⟩ := bind_eq_ok.mp h
    cases h
    simp [Registry.addClass, Registry.resolveKey_classes hkeyed]
  · cases h
    simp [Registry.addClass]

/-- What the attributes of a body declare stays declared, whether or not the class is added then. -/
theorem define_runOn (d : Definition) (w : World) :
    (define d).runOn w =
      match w.registry.newClass d with
      | .error fault => (.error fault, w)
      | .ok (r, c) =>
        match ({ w with registry := r } : World).addClass c with
        | .error fault => (.error fault, { w with registry := r })
        | .ok extended =>
          (.ok c.ref.id, { w with registry := extended.nameClass d.key c.ref.id }) := by
  rw [define, Action.runOn_bind, runOn_reading]
  cases w.registry.newClass d with
  | error fault => rfl
  | ok declared =>
    obtain ⟨r, c⟩ := declared
    show Action.runOn (reading (·.addClass c) >>= _) { w with registry := r } = _
    rw [Action.runOn_bind, runOn_reading]
    dsimp only
    cases ({ w with registry := r } : World).addClass c <;> rfl

theorem define_sends (d : Definition) : Sends kinds (define d) := by
  intro w
  rw [define_runOn]
  cases hnew : w.registry.newClass d with
  | error fault => exact refl_of (Leads kinds) w
  | ok declared =>
    obtain ⟨r, c⟩ := declared
    cases hadd : ({ w with registry := r } : World).addClass c with
    | error fault =>
      simp only [hadd]
      exact .quiet rfl fun hw => ⟨hw.solid, (Registry.newClass_numbered hnew hw.numbered).1⟩
    | ok extended =>
      simp only [hadd]
      refine .quiet rfl fun hw => ⟨hw.solid, ?_⟩
      obtain ⟨hr, hc⟩ := Registry.newClass_numbered hnew hw.numbered
      exact (addClass_numbered hadd hr hc).of_classes rfl

theorem storeKind_sends (kind : AssociationKind) : Sends kinds (storeKind kind) := by
  cases kind with
  | hasOne => exact .pure _
  | hasMany => exact .pure _
  | belongsTo key => exact .bind (store_sends key) fun _ => .pure _
  | belongsToMany through otherKey key =>
    exact .bind (store_sends through) fun _ => .bind (store_sends otherKey) fun _ =>
      .bind (store_sends key) fun _ => .pure _

theorem storeAssociation_sends (a : Association) : Sends kinds (storeAssociation a) :=
  .bind (storeKind_sends a.kind) fun _ => .bind (store_sends a.target) fun _ =>
    .bind (store_sends a.foreignKey) fun _ => .pure _

theorem storeAttribute_sends (body : AttributeBody) : Sends kinds (storeAttribute body) := by
  cases body with
  | column c =>
    rw [storeAttribute]
    split
    · exact .bind (store_sends _) fun _ => .pure _
    · exact .pure _
  | association a => exact .bind (storeAssociation_sends a) fun _ => .pure _
  | plain v => exact .bind (store_sends v) fun _ => .pure _

theorem storeNamed_sends (named : Dictionary Value) : Sends kinds (storeNamed named) := by
  induction named with
  | nil => exact .pure _
  | cons entry rest ih => exact .bind (store_sends entry.2) fun _ => .bind ih fun _ => .pure _

theorem storeAttributes_sends (attributes : List (String × AttributeBody)) :
    Sends kinds (storeAttributes attributes) := by
  induction attributes with
  | nil => exact .pure _
  | cons entry rest ih =>
    exact .bind (storeAttribute_sends entry.2) fun _ => .bind ih fun _ => .pure _

theorem storeSettings_sends (settings : Option (Dictionary Value)) :
    Sends kinds (storeSettings settings) := by
  cases settings with
  | none => exact .pure _
  | some settings => exact .bind (storeNamed_sends settings) fun _ => .pure _

theorem defineShared_sends (d : Definition) : Sends kinds (defineShared d) := by
  rw [defineShared_eq]
  exact .bind (storeSettings_sends d.settings) fun _ =>
    .bind (storeAttributes_sends d.attributes) fun _ => define_sends _

/-! ## 2. Finalizing -/

theorem updateAssociation_sends (index : Nat) (change : Association → Association) :
    Sends kinds (updateAssociation index change) :=
  modifyRegistry_sends fun _ h => h.of_classes rfl

theorem updateMapper_sends (id : Nat) (change : Mapper → Mapper) :
    Sends kinds (updateMapper id change) :=
  modifyRegistry_sends fun _ h => h.set id rfl

theorem resolveAssociation_sends (owner : ModelRef) (index : Nat) :
    Sends kinds (resolveAssociation owner index) := by
  refine .bind .get fun w => .bind (reading_sends _) fun _ =>
    .bind (updateAssociation_sends index _) fun _ => ?_
  split
  · exact .bind (reading_sends _) fun _ => updateAssociation_sends index _
  · exact .pure _

theorem addAssociation_sends (id : Nat) (name : Value) (a : Association) :
    Sends kinds (addAssociation id name a) := by
  refine .bind (storeKey_sends name) fun name => .bind (storeAssociation_sends _) fun a w => ?_
  have hadd : Leads kinds w { w with registry := (w.registry.addAssociation a).1 } :=
    .quiet rfl fun hw => ⟨hw.solid, hw.numbered.of_classes rfl⟩
  have hname : Sends kinds (updateMapper id fun m =>
      { m with associations := m.associations ++ [(name, (w.registry.addAssociation a).2)] }) :=
    updateMapper_sends id _
  exact trans_of (Leads kinds) hadd (hname _)

theorem declare_sends (id : Nat) (word : String) (arguments : Dictionary Value) :
    Sends kinds (declare id word arguments) := by
  rw [declare]
  split
  · exact .bind .get fun _ => .bind (.ofExcept _) fun _ => .bind (reading_sends _) fun _ =>
      .bind .get fun _ => .bind (.ofExcept _) fun _ => .bind (addAssociation_sends _ _ _) fun _ =>
      .ite (.bind (resolveAssociation_sends _ _) fun _ => .pure _) (.pure _)
  · exact .throw _

theorem runDeclaration_sends (id : Nat) (d : Declaration) : Sends kinds (runDeclaration id d) :=
  .bind (reading_sends _) fun _ => .bind (reading_sends _) fun _ =>
    .discard (declare_sends id d.word _)

theorem runHook_sends (id : Nat) : Sends kinds (runHook id) :=
  .bind .get fun _ => .bind (.forM fun d => runDeclaration_sends id d) fun _ =>
    .bind (reading_sends _) fun _ => .forM fun _ => resolveAssociation_sends _ _

theorem finalize_sends (id : Nat) : Sends kinds (finalize id) := by
  refine .bind (reading_sends _) fun _ => .ite (.pure _) ?_
  refine .bind (updateMapper_sends id _) fun _ =>
    .bind (.attempt (runHook_sends id)) fun tried => ?_
  cases tried with
  | ok _ => exact .bind (reading_sends _) fun _ => debug_sends _ _
  | error fault => exact .bind (updateMapper_sends id _) fun _ => .throw _

theorem associationOf_sends (id : Nat) (name : Value) : Sends kinds (associationOf id name) := by
  refine .bind (finalize_sends id) fun _ => .bind .get fun _ => .bind (.ofExcept _) fun mapper =>
    .guarded fun _ => ?_
  split
  · exact .pure _
  · exact .throw _

end RowMapper.World
