import RowMapper.Proofs.World.Declaration

/-!
# Targets that can be found

A target is found by the references of the classes and the names of their tables, which finalizing
does not change.  So where all targets of a table can be found, finding one after another goes well
(`resolveAll_found`).
-/
namespace RowMapper.World

open Model (Association ModelClass Registry)

variable {w w' : World}

/-! ## 1. Signs -/

/-- What a class is found by: its reference, and the name of its table. -/
def classSign (c : ModelClass) : ModelRef × Option Value := (c.ref, c.mapper.map (·.tableName))

/-- Two worlds in which the same classes are found. -/
structure SameSigns (w w' : World) : Prop where
  shelf_eq : w'.shelf = w.shelf
  signs_eq : w'.registry.classes.map classSign = w.registry.classes.map classSign

instance : IsPreorder World SameSigns where
  refl _ := ⟨rfl, rfl⟩
  trans _ _ _ h h' := ⟨h'.shelf_eq.trans h.shelf_eq, h'.signs_eq.trans h.signs_eq⟩

theorem SameSigns.classSign_eq (h : SameSigns w w') (other : Nat) :
    classSign (w'.registry.classAt other) = classSign (w.registry.classAt other) := by
  have hat (r : Registry) :
      classSign (r.classAt other) =
        ((r.classes.map classSign)[other]?).getD (classSign default) := by
    rw [Registry.classAt, List.getElem?_map]
    cases r.classes[other]? <;> rfl
  rw [hat, hat, h.signs_eq]

/-- Whether a class goes by a name can be told by its sign. -/
def signGoesBy (w : World) (name : String) (sign : ModelRef × Option Value) : Bool :=
  match sign.2 with
  | none => false
  | some tableName => sign.1.name == name || namesTable (w.look tableName) name

theorem goesBy_eq (w : World) (name : String) (c : ModelClass) :
    w.goesBy name c = w.signGoesBy name (classSign c) := by
  rw [goesBy, signGoesBy, classSign]
  cases c.mapper <;> rfl

theorem resolveName?_eq (w : World) (home name : String) : w.resolveName? home name =
    let candidates := (w.registry.classes.map classSign).filter (w.signGoesBy name)
    let here := candidates.filter fun sign => sign.1.home == home
    (here.getLast? <|> candidates.getLast?).map (·.1) := by
  have hgoes : w.goesBy name = w.signGoesBy name ∘ classSign := funext (w.goesBy_eq name)
  simp only [resolveName?, hgoes, List.filter_map, List.getLast?_map]
  generalize w.registry.classes.filter (w.signGoesBy name ∘ classSign) = candidates
  show ((candidates.filter fun c => c.ref.home == home).getLast? <|> candidates.getLast?).map
    (·.ref) = (((candidates.filter fun c => c.ref.home == home).getLast?.map classSign) <|>
      candidates.getLast?.map classSign).map (·.1)
  cases (candidates.filter fun c => c.ref.home == home).getLast? <;>
    cases candidates.getLast? <;> rfl

theorem SameSigns.resolveTarget_eq (h : SameSigns w w') (owner : ModelRef) (target : Value) :
    w'.resolveTarget owner target = w.resolveTarget owner target := by
  have hlook (v : Value) : w'.look v = w.look v := by rw [look, look, h.shelf_eq]
  have hexpand : w'.expand target = w.expand target := by rw [expand, expand, h.shelf_eq]
  have hgoes : w'.signGoesBy = w.signGoesBy := by
    funext name sign
    simp only [signGoesBy, hlook]
  have hname (name : String) :
      w'.resolveName? owner.home name = w.resolveName? owner.home name := by
    rw [resolveName?_eq, resolveName?_eq, h.signs_eq, hgoes]
  have hmapper (ref : ModelRef) : (w'.registry.classAt ref.id).mapper.isSome =
      (w.registry.classAt ref.id).mapper.isSome := by
    have hsome := congrArg (fun sign => Option.isSome sign.2) (h.classSign_eq ref.id)
    simpa only [classSign, Option.isSome_map] using hsome
  rw [resolveTarget, resolveTarget, hlook, hexpand]
  split <;> simp only [hmapper, hname]

theorem flagged_sameSigns (id : Nat) (flag : Bool) (w : World) :
    SameSigns w (flagged id flag w) := by
  let c := w.registry.classAt id
  have hsign : classSign { c with mapper := c.mapper.map fun m => { m with finalized := flag } } =
      classSign c := by
    simp [classSign, Option.map_map, Function.comp_def]
  refine ⟨rfl, ?_⟩
  show (w.registry.classes.set id _).map classSign = _
  rw [List.map_set, hsign]
  refine List.ext_getElem? fun other => ?_
  rw [List.getElem?_set]
  by_cases hother : id = other
  · subst hother
    by_cases hlt : id < w.registry.classes.length <;> simp [c, Registry.classAt, hlt]
  · rw [if_neg hother]

/-- The targets of an association of a class can be found. -/
def Findable (owner : ModelRef) (index : Nat) (w : World) : Prop :=
  (∃ ref, w.resolveTarget owner (w.registry.associationAt index).target = .ok ref) ∧
    match (w.registry.associationAt index).kind with
    | .belongsToMany through _ _ => ∃ ref, w.resolveTarget owner through = .ok ref
    | _ => True

/-- The same targets are declared, and the same classes are found. -/
structure SameTargets (w w' : World) : Prop extends SameSigns w w' where
  target_eq : ∀ index, (w'.registry.associationAt index).target =
    (w.registry.associationAt index).target
  kind_eq : ∀ index, (w'.registry.associationAt index).kind = (w.registry.associationAt index).kind

theorem SameTargets.findable {owner : ModelRef} {index : Nat} (h : SameTargets w w')
    (hfind : Findable owner index w) : Findable owner index w' := by
  rw [Findable, h.target_eq, h.kind_eq]
  simp only [h.resolveTarget_eq]
  exact hfind

instance : IsPreorder World SameTargets where
  refl w := ⟨refl_of SameSigns w, fun _ => rfl, fun _ => rfl⟩
  trans _ _ _ h h' := ⟨trans_of SameSigns h.toSameSigns h'.toSameSigns,
    fun index => (h'.target_eq index).trans (h.target_eq index),
    fun index => (h'.kind_eq index).trans (h.kind_eq index)⟩

theorem updateAssociation_sameTargets (index : Nat) (change : Association → Association)
    (htarget : ∀ a, (change a).target = a.target) (hkind : ∀ a, (change a).kind = a.kind)
    (w : World) :
    ∃ t, (updateAssociation index change).runOn w = (.ok (), t) ∧ SameTargets w t := by
  have hat (other : Nat) :
      ((updateAssociation index change).runOn w).2.registry.associationAt other =
        if other = index ∧ other < w.registry.associations.length then
          change (w.registry.associationAt index)
        else w.registry.associationAt other := by
    show ((w.registry.associations.set index _)[other]?).getD default = _
    rw [List.getElem?_set]
    by_cases hother : index = other
    · subst hother
      by_cases hlt : index < w.registry.associations.length <;>
        simp [hlt, Registry.associationAt]
    · rw [if_neg hother, if_neg fun h => hother h.1.symm]
      rfl
  refine ⟨((updateAssociation index change).runOn w).2, rfl, ⟨rfl, rfl⟩, fun other => ?_,
    fun other => ?_⟩
  · rw [hat]
    split
    · next h => rw [htarget, h.1]
    · rfl
  · rw [hat]
    split
    · next h => rw [hkind, h.1]
    · rfl

/-- Targets that can be found are found, and nothing else changes about targets. -/
theorem resolveAssociation_found {owner : ModelRef} {index : Nat} (h : Findable owner index w) :
    ∃ w', (resolveAssociation owner index).runOn w = (.ok (), w') ∧ SameTargets w w' := by
  obtain ⟨⟨ref, href⟩, hthrough⟩ := h
  obtain ⟨t, hupdate, hsame⟩ := updateAssociation_sameTargets index
    (fun a => { a with resolved := some ref }) (fun _ => rfl) (fun _ => rfl) w
  rw [resolveAssociation, Action.runOn_bind_ok (Action.runOn_get w), Action.runOn_bind,
    runOn_reading, href]
  dsimp only
  rw [Action.runOn_bind_ok hupdate]
  cases hkind : (w.registry.associationAt index).kind with
  | belongsToMany through otherKey key =>
    rw [hkind] at hthrough
    obtain ⟨found, hfound⟩ := hthrough
    obtain ⟨t', hupdate', hsame'⟩ := updateAssociation_sameTargets index
      (fun a => { a with resolvedThrough := some found }) (fun _ => rfl) (fun _ => rfl) t
    refine ⟨t', ?_, trans_of SameTargets hsame hsame'⟩
    rw [Action.runOn_bind, runOn_reading, hsame.resolveTarget_eq, hfound]
    exact hupdate'
  | _ => exact ⟨t, rfl, hsame⟩

theorem resolveAll_found {owner : ModelRef} {table : List (Value × Nat)}
    (h : ∀ entry ∈ table, Findable owner entry.2 w) :
    ∃ w', (table.forM fun entry => resolveAssociation owner entry.2).runOn w = (.ok (), w') := by
  induction table generalizing w with
  | nil => exact ⟨w, rfl⟩
  | cons entry rest ih =>
    obtain ⟨t, hrun, hsame⟩ := resolveAssociation_found (h entry List.mem_cons_self)
    obtain ⟨w', hrest⟩ := ih fun other hother =>
      hsame.findable (h other (List.mem_cons_of_mem entry hother))
    refine ⟨w', ?_⟩
    show (resolveAssociation owner entry.2 >>= fun _ =>
      rest.forM fun entry => resolveAssociation owner entry.2).runOn w = _
    rw [Action.runOn_bind_ok hrun, hrest]

end RowMapper.World
