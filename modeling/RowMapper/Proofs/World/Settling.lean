import RowMapper.Proofs.Model.Reference
import RowMapper.Proofs.World.Resolution

/-!
# Finding all targets

What finalizing a class and declaring an association do to the targets of associations.  Nothing
that was found is lost (`Settles`).  `Accounts` says how something comes into the table of a
finalized class: by finalizing the class, which finds the targets of everything in the table
(`finalize_accounts`), or by a declaration, which has to find the targets at once
(`declare_accounts`).  But a declaration puts the association into the table first, so that it is
`leftBehind` where a target cannot be found.
-/
namespace RowMapper

open Model (Association Mapper Registry)

/-! ## 1. Steps -/

namespace World

variable {id : Nat} {w t w' : World}

/-- An association has all its targets. -/
def HasTargets (w : World) (index : Nat) : Prop :=
  w.registry.Resolved (w.registry.associationAt index)

/-- A whole registry stays whole, and nothing that was found is lost. -/
def Settles (w w' : World) : Prop :=
  w.registry.Whole → w'.registry.Whole ∧ Registry.Grows w.registry w'.registry

instance : IsPreorder World Settles where
  refl w h := ⟨h, refl_of Registry.Grows w.registry⟩
  trans _ _ _ h h' hw := by
    obtain ⟨ht, hgrows⟩ := h hw
    obtain ⟨hw', hgrows'⟩ := h' ht
    exact ⟨hw', trans_of Registry.Grows hgrows hgrows'⟩

theorem settles_of_registry (h : w'.registry = w.registry) : Settles w w' := by
  intro hw
  rw [h]
  exact ⟨hw, refl_of Registry.Grows w.registry⟩

theorem settles_of_still {α : Type} {action : Action World α} (h : action.Obeys Still) :
    action.Obeys Settles := h.mono fun _ _ hstill => settles_of_registry hstill.registry_eq

theorem reading_settles {α : Type} (read : World → Except Fault α) :
    (reading read).Obeys Settles := settles_of_still (reading_still read)

theorem associationAt_updateAssociation (r : Registry) {index : Nat}
    (hindex : index < r.associations.length) (change : Association → Association) (other : Nat) :
    (r.updateAssociation index change).associationAt other =
      if index = other then change (r.associationAt index) else r.associationAt other := by
  show ((r.associations.set index _)[other]?).getD default = _
  by_cases hother : index = other
  · subst hother
    rw [if_pos rfl, List.getElem?_set_self hindex]
    rfl
  · rw [if_neg hother, List.getElem?_set_ne hother]
    rfl

/-- A change that keeps the targets of an association. -/
theorem updateAssociation_settles {index : Nat} {change : Association → Association}
    (h : w.registry.Whole → HasTargets w index →
      w.registry.Resolved (change (w.registry.associationAt index))) :
    Settles w ((updateAssociation index change).runOn w).2 := by
  intro hw
  have hlength := updateAssociation_length index change w
  have hmodels (id : Nat) (hid : (w.registry.classAt id).mapper.isSome) :
      ((w.registry.updateAssociation index change).classAt id).mapper.isSome := hid
  refine ⟨hw.of_classes rfl (Nat.le_of_eq hlength.symm),
    ⟨Nat.le_of_eq hlength.symm, hmodels, fun other hother hfound => ?_⟩⟩
  by_cases hindex : index = other
  · subst hindex
    show Registry.Resolved _ ((w.registry.updateAssociation index change).associationAt index)
    rw [associationAt_updateAssociation w.registry hother, if_pos rfl]
    exact (h hw hfound).of_models hmodels
  · show Registry.Resolved _ ((w.registry.associations.set index _)[other]?.getD default)
    rw [List.getElem?_set_ne hindex]
    exact hfound.of_models hmodels

/-- Changing what is known of a class beside its associations. -/
theorem updateMapper_settles {change : Mapper → Mapper}
    (h : ∀ m, Registry.TableWithin w.registry.associations.length (some m) →
      Registry.TableWithin w.registry.associations.length (some (change m))) :
    Settles w ((updateMapper id change).runOn w).2 := by
  intro hw
  have hclass := updateMapper_classAt id change w
  have hmodels (other : Nat) (hmodel : (w.registry.classAt other).mapper.isSome) :
      (((updateMapper id change).runOn w).2.registry.classAt other).mapper.isSome := by
    rw [hclass]
    split
    · next heq =>
      subst heq
      simpa using hmodel
    · exact hmodel
  refine ⟨⟨hw.numbered.set id rfl, fun other => ?_, fun other => ?_⟩,
    ⟨Nat.le_refl _, hmodels, fun index _ hfound => hfound.of_models hmodels⟩⟩
  · rw [hclass]
    split
    · exact hw.attributes id
    · exact hw.attributes other
  · rw [hclass]
    split
    · rintro m hm
      obtain ⟨known, hknown, rfl⟩ := Option.map_eq_some_iff.mp hm
      exact h known (hknown ▸ hw.tables id) _ rfl
    · exact hw.tables other

/-! ## 2. Finding targets -/

/-- A name stands for a class that goes by it. -/
theorem class_of_resolveName {home name : String} {ref : ModelRef}
    (h : w.resolveName? home name = some ref) :
    ∃ c ∈ w.registry.classes, w.goesBy name c = true ∧ c.ref = ref := by
  obtain ⟨c, hc, href⟩ := Option.map_eq_some_iff.mp h
  have hcandidate : c ∈ w.registry.classes.filter (w.goesBy name) := by
    rcases hlocal : ((w.registry.classes.filter (w.goesBy name)).filter fun c =>
        c.ref.home == home).getLast? with _ | here <;> rw [hlocal] at hc
    · exact List.mem_of_getLast? hc
    · cases hc
      exact List.mem_of_mem_filter (List.mem_of_getLast? hlocal)
  obtain ⟨hmem, hgoes⟩ := List.mem_filter.mp hcandidate
  exact ⟨c, hmem, hgoes, href⟩

/-- What is found for a target is a model. -/
theorem model_of_resolveTarget {owner ref : ModelRef} {given : Value}
    (hw : w.registry.Numbered) (h : w.resolveTarget owner given = .ok ref) :
    (w.registry.classAt ref.id).mapper.isSome := by
  rw [resolveTarget] at h
  split at h
  · split at h
    · next hmodel =>
      cases h
      exact hmodel
    · cases h
  · split at h
    · next found hfound =>
      cases h
      obtain ⟨c, hmem, hgoes, rfl⟩ := class_of_resolveName hfound
      obtain ⟨number, hlt, hnumber⟩ := List.getElem_of_mem hmem
      have hat : w.registry.classAt number = c := by
        rw [Registry.classAt, List.getElem?_eq_getElem hlt, hnumber]
        rfl
      have hid := hw number hlt
      rw [hat] at hid
      rw [hid, hat]
      rw [goesBy] at hgoes
      cases hmapper : c.mapper with
      | none =>
        rw [hmapper] at hgoes
        cases hgoes
      | some m => rfl
    · cases h
  · cases h

/-- Finding the targets of an association: what was found stays, and where all of them are found
the association has them. -/
theorem resolveAssociation_targets (owner : ModelRef) (index : Nat) (w : World) :
    Settles w ((resolveAssociation owner index).runOn w).2 ∧
      (w.registry.Whole → index < w.registry.associations.length →
        ((resolveAssociation owner index).runOn w).1 = .ok () →
        HasTargets ((resolveAssociation owner index).runOn w).2 index) := by
  rw [resolveAssociation, Action.runOn_bind_ok (Action.runOn_get w), Action.runOn_bind,
    runOn_reading]
  cases htarget : w.resolveTarget owner (w.registry.associationAt index).target with
  | error fault => exact ⟨refl_of Settles w, by rintro _ _ ⟨⟩⟩
  | ok found =>
    let change (a : Association) : Association := { a with resolved := some found }
    obtain ⟨t, ht⟩ : ∃ t, (updateAssociation index change).runOn w = (.ok (), t) := ⟨_, rfl⟩
    have hfound (hw : w.registry.Whole) : w.registry.Finds (some found) :=
      ⟨found, rfl, model_of_resolveTarget hw.numbered htarget⟩
    have hsettles : Settles w t := by
      have hupdate : Settles w ((updateAssociation index change).runOn w).2 :=
        updateAssociation_settles fun hw h => ⟨hfound hw, h.through⟩
      rwa [ht] at hupdate
    have hat (hin : index < w.registry.associations.length) :
        t.registry.associationAt index = change (w.registry.associationAt index) := by
      cases ht
      exact (associationAt_updateAssociation w.registry hin change index).trans (if_pos rfl)
    dsimp only
    rw [Action.runOn_bind_ok ht]
    cases hkind : (w.registry.associationAt index).kind with
    | belongsToMany through otherKey key =>
      dsimp only
      rw [Action.runOn_bind, runOn_reading]
      cases hthrough : t.resolveTarget owner through with
      | error fault => exact ⟨hsettles, by rintro _ _ ⟨⟩⟩
      | ok joining =>
        let link (a : Association) : Association := { a with resolvedThrough := some joining }
        have hjoining (ht : t.registry.Whole) : t.registry.Finds (some joining) :=
          ⟨joining, rfl, model_of_resolveTarget ht.numbered hthrough⟩
        have hlinks : Settles t ((updateAssociation index link).runOn t).2 :=
          updateAssociation_settles fun ht h => ⟨h.target, fun _ _ _ _ => hjoining ht⟩
        refine ⟨trans_of Settles hsettles hlinks, fun hw hin _ => ?_⟩
        obtain ⟨hwhole, hgrows⟩ := hsettles hw
        show Registry.Resolved _ ((t.registry.updateAssociation index link).associationAt index)
        rw [associationAt_updateAssociation t.registry (Nat.lt_of_lt_of_le hin hgrows.associations_le),
          if_pos rfl, hat hin]
        exact ⟨(hfound hw).of_models hgrows.models, fun _ _ _ _ => hjoining hwhole⟩
    | _ =>
      refine ⟨hsettles, fun hw hin _ => ?_⟩
      show Registry.Resolved _ (t.registry.associationAt index)
      rw [hat hin]
      refine ⟨(hfound hw).of_models (hsettles hw).2.models, fun _ _ _ hmany => ?_⟩
      rw [show (change (w.registry.associationAt index)).kind = _ from hkind] at hmany
      cases hmany

theorem resolveAssociation_settles (owner : ModelRef) (index : Nat) :
    (resolveAssociation owner index).Obeys Settles :=
  fun w => (resolveAssociation_targets owner index w).1

/-- Finding the targets of some associations one after another. -/
theorem resolveAll_targets (owner : ModelRef) (table : List (Value × Nat)) {u : Unit}
    (hw : w.registry.Whole) (hin : ∀ entry ∈ table, entry.2 < w.registry.associations.length)
    (hrun : (table.forM fun entry => resolveAssociation owner entry.2).runOn w = (.ok u, w')) :
    ∀ entry ∈ table, HasTargets w' entry.2 := by
  induction table generalizing w with
  | nil => exact nofun
  | cons entry rest ih =>
    obtain ⟨_, t, hfirst, hrest⟩ := Action.runOn_bind_eq_ok.mp hrun
    obtain ⟨hsettles, htargets⟩ := resolveAssociation_targets owner entry.2 w
    rw [hfirst] at hsettles htargets
    obtain ⟨ht, hgrows⟩ := hsettles hw
    have hlater (other : Value × Nat) (hother : other ∈ entry :: rest) :
        other.2 < t.registry.associations.length :=
      Nat.lt_of_lt_of_le (hin other hother) hgrows.associations_le
    have hrest_settles : (rest.forM fun entry => resolveAssociation owner entry.2).Obeys Settles :=
      .forM fun entry => resolveAssociation_settles owner entry.2
    have hothers := hrest_settles.of_run hrest
    intro other hother
    rcases List.mem_cons.mp hother with rfl | hmem
    · exact (hothers ht).2.resolved _ (hlater other hother)
        (htargets hw (hin other hother) rfl)
    · exact ih ht (fun entry hentry => hlater entry (List.mem_cons_of_mem _ hentry)) hrest other hmem

/-! ## 3. Declaring and finalizing -/

theorem addAssociation_settles (id : Nat) (name : Value) (a : Association) :
    (addAssociation id name a).Obeys Settles := by
  refine .bind (settles_of_still (storeKey_still name)) fun placed =>
    .bind (settles_of_still (storeAssociation_still _)) fun a w => ?_
  have hextends := Registry.addAssociation_extends w.registry a
  let added : World := { w with registry := (w.registry.addAssociation a).1 }
  have hadded : Settles w added := fun hw =>
    ⟨hw.of_classes rfl hextends.associations_le, hextends.grows⟩
  refine trans_of Settles hadded (updateMapper_settles fun m hm => ?_)
  rintro _ heq entry hentry
  cases heq
  rcases List.mem_append.mp hentry with hknown | hnew
  · exact hm m rfl entry hknown
  · rw [List.mem_singleton.mp hnew]
    show w.registry.associations.length < (w.registry.associations ++ [a]).length
    simp

theorem declare_settles (id : Nat) (word : String) (arguments : Dictionary Value) :
    (declare id word arguments).Obeys Settles := by
  rw [declare]
  split
  · exact .bind .get fun _ => .bind (.ofExcept _) fun _ => .bind (reading_settles _) fun _ =>
      .bind .get fun _ => .bind (.ofExcept _) fun _ => .bind (addAssociation_settles id _ _)
      fun index => .ite (.bind (resolveAssociation_settles _ index) fun _ => .pure _) (.pure _)
  · exact .throw _

theorem runDeclaration_settles (id : Nat) (d : Model.Declaration) :
    (runDeclaration id d).Obeys Settles :=
  .bind (reading_settles _) fun _ => .bind (reading_settles _) fun _ =>
    .discard (declare_settles id d.word _)

theorem runHook_settles (id : Nat) : (runHook id).Obeys Settles :=
  .bind .get fun _ => .bind (.forM fun d => runDeclaration_settles id d) fun _ =>
    .bind (reading_settles _) fun _ => .forM fun _ => resolveAssociation_settles _ _

theorem flagged_settles (id : Nat) (flag : Bool) (w : World) : Settles w (flagged id flag w) := by
  refine updateMapper_settles fun m hm => ?_
  rintro _ heq
  cases heq
  exact hm m rfl

theorem finalize_settles (id : Nat) : (finalize id).Obeys Settles := by
  refine .bind (reading_settles _) fun _ => .ite (.pure _) ?_
  refine .bind (flagged_settles id true) fun _ =>
    .bind (.attempt (runHook_settles id)) fun tried => ?_
  cases tried with
  | ok _ => exact settles_of_still (.bind (reading_still _) fun _ => debug_still _ _)
  | error fault => exact .bind (flagged_settles id false) fun _ => .throw _

/-- A table is the same where the class is. -/
theorem same_of_classAt (h : w'.registry.classAt id = w.registry.classAt id) :
    (Finalized id w' ↔ Finalized id w) ∧ ∀ index, InTable id w' index ↔ InTable id w index := by
  simp only [Finalized, InTable, Registry.mapperOf, h, and_self, implies_true]

theorem InTable.lt (hw : w.registry.Whole) {index : Nat} (h : InTable id w index) :
    index < w.registry.associations.length := by
  obtain ⟨m, hm, entry, hentry, rfl⟩ := h
  exact hw.tables id m (Registry.mapperOf_eq_ok.mp hm) entry hentry

/-- Finding the targets of a class finds those of everything in its table. -/
theorem findTargets_targets {owner : ModelRef} {u : Unit} (hw : w.registry.Whole)
    (hrun : (findTargets id owner).runOn w = (.ok u, w')) :
    ∀ index, InTable id w' index → HasTargets w' index := by
  have hsame := (findTargets_same id owner).of_run hrun
  rintro index ⟨m, hm, entry, hentry, rfl⟩
  rw [hsame.mapperOf_eq] at hm
  have hmapper : w.mapper id = .ok { m with tableName := w.expand m.tableName } := by
    rw [mapper, hm]
    rfl
  rw [findTargets, Action.runOn_bind, runOn_reading, hmapper] at hrun
  exact resolveAll_targets owner m.associations hw
    (fun entry hentry => InTable.lt hw ⟨m, hm, entry, hentry, rfl⟩) hrun entry hentry

/-- A hook that ran to its end has found the targets of everything in the table. -/
theorem runHook_targets {u : Unit} (hw : w.registry.Whole)
    (hrun : (runHook id).runOn w = (.ok u, w')) :
    ∀ index, InTable id w' index → HasTargets w' index := by
  rw [runHook_runOn] at hrun
  obtain ⟨_, t, hhook, hfind⟩ := Action.runOn_bind_eq_ok.mp hrun
  have hdeclare : ((hookOf w.registry id).forM (runDeclaration id)).Obeys Settles :=
    .forM fun d => runDeclaration_settles id d
  exact findTargets_targets (hdeclare.of_run hhook hw).1 hfind

/-- What is in the table of a finalized class was there when the class was finalized before, or it
has its targets, or it is one of `left`. -/
def Accounts (left : List (Nat × Nat)) (w w' : World) : Prop :=
  ∀ id index, Finalized id w' → InTable id w' index →
    Finalized id w ∧ InTable id w index ∨ HasTargets w' index ∨ (id, index) ∈ left

/-- Other classes are as they were, and the class itself is not finalized. -/
theorem accounts_of_others (id : Nat) {left : List (Nat × Nat)}
    (hothers : ∀ other, other ≠ id → w'.registry.classAt other = w.registry.classAt other)
    (hself : ∀ index, Finalized id w' → InTable id w' index →
      Finalized id w ∧ InTable id w index ∨ HasTargets w' index ∨ (id, index) ∈ left) :
    Accounts left w w' := by
  intro other index hfinal hin
  by_cases hother : other = id
  · subst hother
    exact hself index hfinal hin
  · obtain ⟨hflags, htables⟩ := same_of_classAt (hothers other hother)
    exact .inl ⟨hflags.mp hfinal, (htables index).mp hin⟩

/-- A class that gets finalized has the targets of everything in its table. -/
theorem finalize_accounts (id : Nat) (hw : w.registry.Whole) :
    Accounts [] w ((finalize id).runOn w).2 := by
  have hsettles := finalize_settles id w
  cases hm : w.registry.mapperOf id with
  | error fault =>
    rw [finalize, Action.runOn_bind, runOn_reading, mapper, hm]
    exact fun _ _ hfinal hin => .inl ⟨hfinal, hin⟩
  | ok m =>
    rw [finalize_runOn hm] at hsettles ⊢
    cases hflag : m.finalized with
    | true => exact fun _ _ hfinal hin => .inl ⟨hfinal, hin⟩
    | false =>
      rw [if_neg (by decide)]
      obtain ⟨hflagged, -⟩ := flagged_settles id true w hw
      obtain ⟨added, hdeclared, -⟩ := runHook_table id (flagged id true w)
      have hothers (other : Nat) (hother : other ≠ id) :
          ((runHook id).runOn (flagged id true w)).2.registry.classAt other =
            w.registry.classAt other := by
        rw [hdeclared.others other hother, flagged, updateMapper_classAt, if_neg hother]
      rcases hrun : (runHook id).runOn (flagged id true w) with ⟨fault | _, t⟩ <;>
        rw [hrun] at hothers hdeclared <;> dsimp only at hothers hdeclared ⊢
      · refine accounts_of_others id (fun other hother => ?_) fun index hfinal _ => ?_
        · rw [flagged, updateMapper_classAt, if_neg hother, hothers other hother]
        · obtain ⟨m', hm', hfinal⟩ := hfinal
          have hmapper := mapperOf_declared hdeclared (mapperOf_flagged hm true)
          cases hm'.symm.trans (mapperOf_flagged hmapper false)
          cases hfinal
      · have hreport : Still t ((reportFinalized id).runOn t).2 :=
          (Action.Obeys.bind (reading_still _) fun _ => debug_still _ _) t
        have hclass (other : Nat) : ((reportFinalized id).runOn t).2.registry.classAt other =
            t.registry.classAt other := by rw [hreport.registry_eq]
        refine accounts_of_others id (fun other hother => ?_) fun index _ hin => ?_
        · rw [hclass, hothers other hother]
        · refine .inr (.inl ?_)
          rw [HasTargets, hreport.registry_eq]
          exact runHook_targets hflagged hrun index (((same_of_classAt (hclass id)).2 index).mp hin)

/-- The association that a refused declaration has left in the table of a finalized class. -/
def leftBehind (id : Nat) (w : World) : Except Fault Nat × World → List (Nat × Nat)
  | (.ok _, _) => []
  | (.error _, w') =>
    let index := w.registry.associations.length
    if Finalized id w ∧ InTable id w' index then [(id, index)] else []

/-- A declaration is refused before anything is changed, or its name was checked and its association
is added, and its targets are found if the class is finalized. -/
theorem declare_cases (id : Nat) (word : String) (arguments : Dictionary Value) (w : World) :
    (∃ fault, (declare id word arguments).runOn w = (.error fault, w)) ∨
    ∃ name a m, w.mapper id = .ok m ∧ checkName (w.registry.classAt id).ref.name m name = .ok () ∧
      (declare id word arguments).runOn w = (do
      let index ← addAssociation id name a
      if m.finalized then resolveAssociation (w.registry.classAt id).ref index
      return index : Action World Nat).runOn w := by
  rw [declare]
  cases arguments.get? "as" with
  | none => exact .inl ⟨_, rfl⟩
  | some given =>
    dsimp only
    rw [Action.runOn_bind_ok (Action.runOn_get w)]
    cases hread : Association.ofArguments word (arguments.filter fun entry => entry.1 != "as") with
    | error fault => exact .inl ⟨fault, by rw [Action.runOn_bind, Action.runOn_ofExcept]⟩
    | ok a =>
      rw [Action.runOn_bind_ok (Action.runOn_ofExcept (.ok a) w), Action.runOn_bind, runOn_reading]
      cases hm : w.mapper id with
      | error fault => exact .inl ⟨fault, rfl⟩
      | ok m =>
        dsimp only
        rw [Action.runOn_bind_ok (Action.runOn_get w)]
        cases hname : checkName (w.registry.classAt id).ref.name m (w.expand given) with
        | error fault => exact .inl ⟨fault, by rw [Action.runOn_bind, Action.runOn_ofExcept]⟩
        | ok _ =>
          exact .inr ⟨_, a, m, rfl, hname, Action.runOn_bind_ok (Action.runOn_ofExcept (.ok ()) w)⟩

theorem accounts_of_same {left : List (Nat × Nat)} (h : SameClasses w w') :
    Accounts left w w' := by
  intro id index hfinal hin
  have hclass : w'.registry.classAt id = w.registry.classAt id := by
    rw [Registry.classAt, h]
    rfl
  obtain ⟨hflags, htables⟩ := same_of_classAt hclass
  exact .inl ⟨hflags.mp hfinal, (htables index).mp hin⟩

/-- A declaration adds one association at most, which has its targets if the class is finalized,
unless it is left behind. -/
theorem declare_accounts (id : Nat) (word : String) (arguments : Dictionary Value)
    (hw : w.registry.Whole) :
    Accounts (leftBehind id w ((declare id word arguments).runOn w)) w
      ((declare id word arguments).runOn w).2 := by
  rcases declare_cases id word arguments w with ⟨fault, hrun⟩ | ⟨name, a, m, hm, -, hrun⟩
  · rw [hrun]
    exact accounts_of_same rfl
  · have hsettles := addAssociation_settles id name a w
    rw [hrun, Action.runOn_bind]
    rcases hadd : (addAssociation id name a).runOn w with ⟨fault | index, t⟩ <;>
      rw [hadd] at hsettles
    · exact accounts_of_same (addAssociation_refused hadd)
    obtain ⟨placed, -, hdeclared⟩ := addAssociation_declared hadd
    obtain ⟨m₀, hm₀, hm⟩ := bind_eq_ok.mp hm
    cases hm
    have hmapper := mapperOf_declared hdeclared hm₀
    obtain rfl := addAssociation_index hadd
    have hnew : InTable id t w.registry.associations.length :=
      ⟨_, hmapper, _, List.mem_append_right _ (List.mem_singleton_self _), rfl⟩
    have hold {index : Nat} (hin : InTable id t index) :
        InTable id w index ∨ index = w.registry.associations.length := by
      obtain ⟨m', hm', entry, hentry, rfl⟩ := hin
      cases hm'.symm.trans hmapper
      rcases List.mem_append.mp hentry with hmem | hmem
      · exact .inl ⟨m₀, hm₀, entry, hmem, rfl⟩
      · exact .inr (congrArg Prod.snd (List.mem_singleton.mp hmem))
    dsimp only
    cases hflag : m₀.finalized with
    | false =>
      refine accounts_of_others id hdeclared.others fun index hfinal _ => ?_
      obtain ⟨m', hm', hfinal⟩ := hfinal
      cases hm'.symm.trans hmapper
      rw [hflag] at hfinal
      cases hfinal
    | true =>
      have hfinal : Finalized id w := ⟨m₀, hm₀, hflag⟩
      let owner := (w.registry.classAt id).ref
      have htargets := (resolveAssociation_targets owner w.registry.associations.length t).2
      have hsame := resolveAssociation_same owner w.registry.associations.length t
      rw [if_pos rfl, Action.runOn_bind]
      rcases hfind : (resolveAssociation owner w.registry.associations.length).runOn t with
        ⟨fault | _, w'⟩ <;> rw [hfind] at hsame htargets
      all_goals
        have hclass (other : Nat) : w'.registry.classAt other = t.registry.classAt other := by
          rw [Registry.classAt, hsame]
          rfl
        refine accounts_of_others id
          (fun other hother => (hclass other).trans (hdeclared.others other hother))
          fun index _ hin => ?_
        rcases hold (((same_of_classAt (hclass id)).2 index).mp hin) with hbefore | rfl
        · exact .inl ⟨hfinal, hbefore⟩
        refine .inr ?_
      · refine .inr ?_
        rw [leftBehind, if_pos ⟨hfinal, hin⟩]
        exact List.mem_singleton_self _
      · obtain ⟨hwhole, -⟩ := hsettles hw
        exact .inl (htargets hwhole (hnew.lt hwhole) rfl)

end World
end RowMapper
