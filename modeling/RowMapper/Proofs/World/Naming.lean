import RowMapper.Proofs.Model.Naming
import RowMapper.Proofs.World.Unresolved

/-!
# Naming in reachable worlds

Every registry that definitions, finalizing and declarations lead to is well named: a declaration is
refused if its name is that of a column (`not_column_of_checkName`), and a definition never looks at
what was declared since.  So the names that columns and associations of a class share are always
those that the class declares twice, no more and no less (`Reached.wellNamed`).
-/
namespace RowMapper

open Model (Association Definition Mapper Registry)

namespace World

variable {id : Nat} {w t w' : World} {left : List (Nat × Nat)}

/-! ## 1. Steps -/

/-- A well-named registry stays so. -/
def KeepsNames (w w' : World) : Prop := w.registry.WellNamed → w'.registry.WellNamed

instance : IsPreorder World KeepsNames where
  refl _ h := h
  trans _ _ _ h h' hw := h' (h hw)

theorem keepsNames_of_registry (h : w'.registry = w.registry) : KeepsNames w w' := by
  intro hw
  rwa [h]

theorem keepsNames_of_still {α : Type} {action : Action World α} (h : action.Obeys Still) :
    action.Obeys KeepsNames := h.mono fun _ _ hstill => keepsNames_of_registry hstill.registry_eq

theorem reading_keepsNames {α : Type} (read : World → Except Fault α) :
    (reading read).Obeys KeepsNames := keepsNames_of_still (reading_still read)

theorem updateAssociation_keepsNames (index : Nat) (change : Association → Association) :
    (updateAssociation index change).Obeys KeepsNames := fun _ h => h.of_classes rfl h.keys

theorem resolveAssociation_keepsNames (owner : ModelRef) (index : Nat) :
    (resolveAssociation owner index).Obeys KeepsNames := by
  refine .bind .get fun _ => .bind (reading_keepsNames _) fun _ =>
    .bind (updateAssociation_keepsNames index _) fun _ => ?_
  split
  · exact .bind (reading_keepsNames _) fun _ => updateAssociation_keepsNames index _
  · exact .pure _

/-- A change of a mapper that keeps its names. -/
theorem updateMapper_keepsNames {change : Mapper → Mapper}
    (h : ∀ m, w.registry.mapperOf id = .ok m → w.registry.Named id m →
      w.registry.Named id (change m)) : KeepsNames w ((updateMapper id change).runOn w).2 := by
  intro hw
  have hclass := updateMapper_classAt id change w
  have hsame (other : Nat) :
      (((updateMapper id change).runOn w).2.registry.classAt other).ancestry =
        (w.registry.classAt other).ancestry ∧
      (((updateMapper id change).runOn w).2.registry.classAt other).attributes =
        (w.registry.classAt other).attributes := by
    rw [hclass]
    split
    · next heq => exact heq ▸ ⟨rfl, rfl⟩
    · exact ⟨rfl, rfl⟩
  have hlength : ((updateMapper id change).runOn w).2.registry.classes.length =
      w.registry.classes.length := List.length_set
  refine ⟨fun entry hentry => hlength ▸ hw.keys entry hentry, fun other => ?_, fun other m hm => ?_⟩
  · rw [(hsame other).1, hlength]
    exact hw.ancestors other
  · refine Registry.Named.congr ?_
      (Registry.bodies_congr (hsame other).1 fun ancestor _ => (hsame ancestor).2)
    rw [hclass] at hm
    split at hm
    · next heq =>
      obtain ⟨known, hknown, rfl⟩ := Option.map_eq_some_iff.mp hm
      exact heq ▸ h known (Registry.mapperOf_eq_ok.mpr hknown) (hw.named id known hknown)
    · exact hw.named other m hm

theorem flagged_keepsNames (id : Nat) (flag : Bool) (w : World) :
    KeepsNames w (flagged id flag w) :=
  updateMapper_keepsNames fun m _ h => by
    have hnone : ∀ name, name ∈ m.columns.names →
        Entries.has ([] : List (Value × Nat)) (.str name) = false := fun _ _ => rfl
    simpa using h.later hnone flag

/-! ## 2. Declaring and finalizing -/

/-- A name that passes the check is that of no column. -/
theorem not_column_of_checkName {model : String} {m : Mapper} {name : Value} {u : Unit}
    (h : checkName model m name = .ok u) : ∀ text ∈ m.columns.names, name.text? ≠ some text := by
  intro text hmem heq
  have htaken : m.columns.names.any (fun column => name.sameKey (.str column)) = true :=
    List.any_eq_true.mpr ⟨text, hmem, by simp [Value.sameKey_str, heq]⟩
  rw [checkName, htaken] at h
  simp only [if_true] at h
  split at h
  · cases h
  · split at h
    · cases h
    · split at h <;> cases h

/-- An association that has the name of no column goes to the end of the table. -/
theorem addAssociation_keepsNames {name : Value} (a : Association)
    (hname : ∀ m, w.registry.mapperOf id = .ok m → ∀ text ∈ m.columns.names,
      name.text? ≠ some text) : KeepsNames w ((addAssociation id name a).runOn w).2 := by
  obtain ⟨placed, s, hplaced⟩ : ∃ placed s, (storeKey name).runOn w = (.ok placed, s) := ⟨_, _, rfl⟩
  have htext : placed.text? = name.text? := by
    cases hplaced
    exact text?_putKey w.shelf name
  have hkey := (storeKey_still name).of_run hplaced
  rw [addAssociation, Action.runOn_bind_ok hplaced, Action.runOn_bind]
  rcases hstored : (storeAssociation { a with name := placed }).runOn s with ⟨fault | stored, t⟩ <;>
    have hstill := trans_of Still hkey ((storeAssociation_still _).of_run hstored)
  · exact keepsNames_of_registry hstill.registry_eq
  let added : World := { t with registry := (t.registry.addAssociation stored).1 }
  have hadded : KeepsNames w added := by
    intro hw
    rw [← hstill.registry_eq] at hw
    exact hw.of_classes rfl hw.keys
  refine trans_of KeepsNames hadded (updateMapper_keepsNames fun m hm hnamed => ?_)
  refine hnamed.later (fun text hmem => ?_) m.finalized
  have hm' : w.registry.mapperOf id = .ok m := by rwa [← hstill.registry_eq]
  simpa [Entries.has, Value.sameKey_str, htext] using hname m hm' text hmem

theorem declare_keepsNames (id : Nat) (word : String) (arguments : Dictionary Value) :
    (declare id word arguments).Obeys KeepsNames := by
  intro w
  rcases declare_cases id word arguments w with ⟨fault, hrun⟩ | ⟨name, a, m, hm, hcheck, hrun⟩ <;>
    rw [hrun]
  · exact refl_of KeepsNames w
  obtain ⟨known, hknown, hm⟩ := bind_eq_ok.mp hm
  cases hm
  have hadded : KeepsNames w ((addAssociation id name a).runOn w).2 := by
    refine addAssociation_keepsNames a fun m hm => ?_
    cases hknown.symm.trans hm
    exact not_column_of_checkName hcheck
  rw [Action.runOn_bind]
  rcases hrun : (addAssociation id name a).runOn w with ⟨fault | index, t⟩ <;> rw [hrun] at hadded
  · exact hadded
  · have hfound : (do
        if known.finalized then resolveAssociation (w.registry.classAt id).ref index
        return index : Action World Nat).Obeys KeepsNames :=
      .ite (.bind (resolveAssociation_keepsNames _ index) fun _ => .pure index) (.pure index)
    exact trans_of KeepsNames hadded (hfound t)

theorem runDeclaration_keepsNames (id : Nat) (d : Model.Declaration) :
    (runDeclaration id d).Obeys KeepsNames :=
  .bind (reading_keepsNames _) fun _ => .bind (reading_keepsNames _) fun _ =>
    .discard (declare_keepsNames id d.word _)

theorem runHook_keepsNames (id : Nat) : (runHook id).Obeys KeepsNames :=
  .bind .get fun _ => .bind (.forM fun d => runDeclaration_keepsNames id d) fun _ =>
    .bind (reading_keepsNames _) fun _ => .forM fun _ => resolveAssociation_keepsNames _ _

theorem finalize_keepsNames (id : Nat) : (finalize id).Obeys KeepsNames := by
  refine .bind (reading_keepsNames _) fun _ => .ite (.pure _) ?_
  refine .bind (flagged_keepsNames id true) fun _ =>
    .bind (.attempt (runHook_keepsNames id)) fun tried => ?_
  cases tried with
  | ok _ => exact keepsNames_of_still (.bind (reading_still _) fun _ => debug_still _ _)
  | error fault => exact .bind (flagged_keepsNames id false) fun _ => .throw _

/-! ## 3. Defining -/

theorem define_keepsNames (d : Definition) : (define d).Obeys KeepsNames := by
  intro w hw
  rw [define_runOn]
  cases hnew : w.registry.newClass d with
  | error fault => exact hw
  | ok declared =>
    obtain ⟨r, c⟩ := declared
    obtain ⟨hr, rest, hancestry, hrest⟩ := hw.newClass hnew
    have hid := (Registry.newClass_eq_ok hnew).2
    have hmapper := Registry.newClass_mapper hnew
    dsimp only
    cases hadd : ({ w with registry := r } : World).addClass c with
    | error fault => exact hr
    | ok extended =>
      have hextended : extended.WellNamed := by
        rw [World.addClass] at hadd
        split at hadd
        · obtain ⟨tableName, -, hadd⟩ := bind_eq_ok.mp hadd
          exact hr.addModel hancestry hrest hadd
        · cases hadd
          refine hr.addClass ?_ (by rintro m hm; cases hmapper.symm.trans hm)
          rw [hancestry]
          exact List.forall_mem_cons.mpr
            ⟨Nat.le_refl _, fun ancestor hmem => Nat.le_of_lt (hrest ancestor hmem)⟩
      exact hextended.nameClass d.key (by
        rw [hid, addClass_length hadd]
        exact Nat.lt_succ_self _)

theorem defineShared_keepsNames (d : Definition) : (defineShared d).Obeys KeepsNames := by
  intro w
  rcases defineShared_cases d w with hsame | ⟨placed, u, hrun, hregistry, -⟩
  · exact keepsNames_of_registry hsame
  · rw [hrun]
    exact trans_of KeepsNames (keepsNames_of_registry hregistry) (define_keepsNames placed u)

/-! ## 4. Reachable worlds -/

/-- Every registry that is reached is well named. -/
theorem Reached.wellNamed (h : Reached left w) : w.registry.WellNamed := by
  induction h with
  | start hinitial => exact hinitial ▸ Registry.initial_wellNamed
  | elsewhere _ hsame ih => exact keepsNames_of_registry hsame ih
  | define _ d _ ih => exact defineShared_keepsNames d _ ih
  | finalize _ id ih => exact finalize_keepsNames id _ ih
  | declare _ id word arguments ih => exact declare_keepsNames id word arguments _ ih

/-- A class that is there has the same bodies later. -/
theorem Steady.bodies_eq (h : Steady w w') (hw : w.registry.WellNamed)
    (hid : id < w.registry.classes.length) : w'.registry.bodies id = w.registry.bodies id := by
  refine Registry.bodies_congr ?_ fun ancestor hmem => ?_
  · obtain ⟨added, flag, hclass⟩ := h.classAt_eq id hid
    rw [hclass, Model.ModelClass.later_ancestry]
  · obtain ⟨added, flag, hclass⟩ := h.classAt_eq ancestor (hw.ancestors id ancestor hmem)
    rw [hclass, Model.ModelClass.later_attributes]

end World
end RowMapper
