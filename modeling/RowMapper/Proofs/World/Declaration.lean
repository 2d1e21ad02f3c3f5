import RowMapper.Entity.Relation
import RowMapper.Proofs.World.Call

/-!
# What hooks declare

A declaration is refused before anything is changed, or its association goes to the end of the
table of the class (`runDeclaration_comes`).  So the run of a hook only adds to the table of its
class, and however it ends what was added stays there (`runHook_table`).  A name that is in the
table is refused, so a hook that declares it again fails (`forM_taken`).
-/
namespace RowMapper

open Model (Association Declaration Mapper ModelClass Registry)

/-! ## 1. Tables of associations -/

/-- A class with more associations at the end of its table. -/
def Model.ModelClass.declaring (c : ModelClass) (added : List (Value × Nat)) : ModelClass :=
  { c with mapper := c.mapper.map fun m => { m with associations := m.associations ++ added } }

@[simp] theorem Model.ModelClass.declaring_nil (c : ModelClass) : c.declaring [] = c := by
  obtain ⟨_, _, _, mapper, _⟩ := c
  cases mapper <;> simp [declaring]

@[simp] theorem Model.ModelClass.declaring_declaring (c : ModelClass)
    (first second : List (Value × Nat)) :
    (c.declaring first).declaring second = c.declaring (first ++ second) := by
  obtain ⟨_, _, _, mapper, _⟩ := c
  cases mapper <;> simp [declaring]

theorem Model.Registry.mapperOf_eq_ok {r : Registry} {id : Nat} {m : Mapper} :
    r.mapperOf id = .ok m ↔ (r.classAt id).mapper = some m := by
  rw [mapperOf]
  cases (r.classAt id).mapper <;> simp

/-- The text that a declaration is written with as a name. -/
def Model.Declaration.writtenName? (d : Declaration) : Option String :=
  match Dictionary.get? d.arguments "as" with
  | some (.plain v) => v.text?
  | _ => none

theorem evalNamed_get? {scope : Scope} {terms : List (String × Term)} {values : Dictionary Value}
    (h : Term.evalNamed scope terms = .ok values) {name : String} {v : Value}
    (hname : Dictionary.get? terms name = some (.plain v)) : values.get? name = some v := by
  induction terms generalizing values with
  | nil => cases hname
  | cons entry rest ih =>
    obtain ⟨known, t⟩ := entry
    obtain ⟨first, hfirst, h⟩ := bind_eq_ok.mp h
    obtain ⟨others, hothers, h⟩ := bind_eq_ok.mp h
    cases h
    rw [Dictionary.get?] at hname ⊢
    split at hname
    · cases hname
      cases hfirst
      rw [if_pos ‹_›]
    · rw [if_neg ‹_›]
      exact ih hothers hname

theorem Value.sameKey_of_text {known name : Value} {a : String} (hknown : known.text? = some a)
    (hname : name.text? = some a) : known.sameKey name = true := by
  cases known <;> cases hknown
  cases name <;> cases hname
  simp [Value.sameKey]

namespace World

variable {id : Nat} {w w' u : World}

/-- The classes are as they were. -/
def SameClasses (w w' : World) : Prop := w'.registry.classes = w.registry.classes

instance : IsPreorder World SameClasses where
  refl _ := rfl
  trans _ _ _ h h' := h'.trans h

/-- One class has more associations, and the others are as they were. -/
structure Declared (id : Nat) (added : List (Value × Nat)) (w w' : World) : Prop where
  own : w'.registry.classAt id = (w.registry.classAt id).declaring added
  others : ∀ other, other ≠ id → w'.registry.classAt other = w.registry.classAt other

theorem Declared.of_same (h : SameClasses w w') : Declared id [] w w' where
  own := by rw [Registry.classAt, h, Model.ModelClass.declaring_nil]; rfl
  others other _ := by rw [Registry.classAt, h]; rfl

theorem Declared.trans {first second : List (Value × Nat)} (h : Declared id first w u)
    (h' : Declared id second u w') : Declared id (first ++ second) w w' where
  own := by rw [h'.own, h.own, Model.ModelClass.declaring_declaring]
  others other hother := (h'.others other hother).trans (h.others other hother)

/-- A class gets associations at most, and no other class changes. -/
def Declares (id : Nat) (w w' : World) : Prop := ∃ added, Declared id added w w'

instance : IsPreorder World (Declares id) where
  refl _ := ⟨[], .of_same rfl⟩
  trans _ _ _ h h' := by
    obtain ⟨first, h⟩ := h
    obtain ⟨second, h'⟩ := h'
    exact ⟨first ++ second, h.trans h'⟩

/-! ## 2. Steps -/

theorem store_same (v : Value) : (store v).Obeys SameClasses := fun _ => rfl

theorem storeKind_same (kind : Model.AssociationKind) : (storeKind kind).Obeys SameClasses := by
  cases kind with
  | hasOne => exact .pure _
  | hasMany => exact .pure _
  | belongsTo key => exact .bind (store_same key) fun _ => .pure _
  | belongsToMany through otherKey key =>
    exact .bind (store_same through) fun _ => .bind (store_same otherKey) fun _ =>
      .bind (store_same key) fun _ => .pure _

theorem storeAssociation_same (a : Association) : (storeAssociation a).Obeys SameClasses :=
  .bind (storeKind_same a.kind) fun _ => .bind (store_same a.target) fun _ =>
    .bind (store_same a.foreignKey) fun _ => .pure _

theorem updateAssociation_same (index : Nat) (change : Association → Association) :
    (updateAssociation index change).Obeys SameClasses := fun _ => rfl

theorem resolveAssociation_same (owner : ModelRef) (index : Nat) :
    (resolveAssociation owner index).Obeys SameClasses := by
  refine .bind .get fun w => .bind (fun _ => rfl) fun _ =>
    .bind (updateAssociation_same index _) fun _ => ?_
  split
  · exact .bind (fun _ => rfl) fun _ => updateAssociation_same index _
  · exact .pure _

/-- Changing the mapper of a class changes nothing else. -/
theorem updateMapper_classAt (id : Nat) (change : Mapper → Mapper) (w : World) (other : Nat) :
    ((updateMapper id change).runOn w).2.registry.classAt other =
      if other = id then
        { w.registry.classAt id with mapper := (w.registry.classAt id).mapper.map change }
      else w.registry.classAt other := by
  show Registry.classAt { w.registry with classes := w.registry.classes.set id _ } other = _
  simp only [Registry.classAt]
  split
  · next h =>
    subst h
    rcases Nat.lt_or_ge other w.registry.classes.length with hlt | hout
    · rw [List.getElem?_set_self hlt]
      rfl
    · rw [List.set_eq_of_length_le hout, List.getElem?_eq_none hout]
      rfl
  · next h => rw [List.getElem?_set_ne (Ne.symm h)]

/-- The world with the flag of a class set. -/
def flagged (id : Nat) (flag : Bool) (w : World) : World :=
  ((updateMapper id fun m => { m with finalized := flag }).runOn w).2

theorem mapperOf_flagged {m : Mapper} (h : w.registry.mapperOf id = .ok m) (flag : Bool) :
    (flagged id flag w).registry.mapperOf id = .ok { m with finalized := flag } := by
  rw [Registry.mapperOf_eq_ok] at h ⊢
  rw [flagged, updateMapper_classAt, if_pos rfl, h]
  rfl

theorem text?_putKey (s : Shelf) (key : Value) : (Shelf.putKey s key).1.text? = key.text? := by
  rw [Shelf.putKey]
  split
  · rfl
  · cases key <;> rfl

/-- An association goes to the end of the table of its class. -/
theorem addAssociation_declared {name : Value} {a : Association} {index : Nat}
    (hrun : (addAssociation id name a).runOn w = (.ok index, w')) :
    ∃ placed, placed.text? = name.text? ∧ Declared id [(placed, index)] w w' := by
  obtain ⟨placed, s, hplaced, hrun⟩ := Action.runOn_bind_eq_ok.mp hrun
  have htext : placed.text? = name.text? := by
    cases hplaced
    exact text?_putKey w.shelf name
  have hkey : SameClasses w s := by
    cases hplaced
    rfl
  obtain ⟨stored, t, hstored, hrun⟩ := Action.runOn_bind_eq_ok.mp hrun
  have hsame := trans_of SameClasses hkey ((storeAssociation_same _).of_run hstored)
  have hindex : (t.registry.addAssociation stored).2 = index :=
    Except.ok.inj (congrArg Prod.fst hrun)
  have hafter : ((updateMapper id fun m =>
      { m with associations := m.associations ++ [(placed, index)] }).runOn
        { t with registry := (t.registry.addAssociation stored).1 }).2 = w' := by
    rw [← hindex]
    exact congrArg Prod.snd hrun
  have hclass (other : Nat) : (t.registry.addAssociation stored).1.classAt other =
      w.registry.classAt other := congrArg (fun classes => (classes[other]?).getD default) hsame
  refine ⟨placed, htext, ?_, fun other hother => ?_⟩
  · rw [← hafter, updateMapper_classAt, if_pos rfl]
    exact congrArg (ModelClass.declaring · _) (hclass id)
  · rw [← hafter, updateMapper_classAt, if_neg hother]
    exact hclass other

theorem addAssociation_refused {name : Value} {a : Association} {fault : Fault}
    (hrun : (addAssociation id name a).runOn w = (.error fault, w')) : SameClasses w w' := by
  obtain ⟨placed, s, hplaced⟩ : ∃ placed s, (storeKey name).runOn w = (.ok placed, s) := ⟨_, _, rfl⟩
  have hkey : SameClasses w s := by
    cases hplaced
    rfl
  rw [addAssociation, Action.runOn_bind_ok hplaced, Action.runOn_bind] at hrun
  rcases hstored : (storeAssociation { a with name := placed }).runOn s with ⟨_ | stored, t⟩ <;>
    rw [hstored] at hrun <;> cases hrun
  exact trans_of SameClasses hkey ((storeAssociation_same _).of_run hstored)

/-- What is read of a declaration before it is carried out: the name, the association, and the
mapper of the class. -/
def readDeclaration (w : World) (id : Nat) (d : Declaration) :
    Except Fault (Value × Association × Mapper) := do
  w.checkWord id d.word
  let arguments ← Term.evalNamed w.scope d.arguments
  let some given := arguments.get? "as" | throw .wrongType
  let association ← Association.ofArguments d.word (arguments.filter fun entry => entry.1 != "as")
  let mapper ← w.mapper id
  checkName (w.registry.classAt id).ref.name mapper (w.expand given)
  return (w.expand given, association, mapper)

/-- Puts an association into the table, and finds its targets if the class counts as finalized. -/
def addDeclared (id : Nat) (name : Value) (a : Association) (m : Mapper) : Action World Unit := do
  let owner := ((← get).registry.classAt id).ref
  let index ← addAssociation id name a
  if m.finalized then resolveAssociation owner index

/-- A declaration is read as a whole before anything is changed. -/
theorem runDeclaration_runOn (id : Nat) (d : Declaration) (w : World) :
    (runDeclaration id d).runOn w = (Action.ofExcept (w.readDeclaration id d) >>=
      fun (name, a, m) => addDeclared id name a m).runOn w := by
  rw [runDeclaration, readDeclaration]
  refine Action.runOn_read_bind (runOn_reading ..) fun _ => ?_
  refine Action.runOn_read_bind (runOn_reading ..) fun arguments => ?_
  rw [Action.discard_eq, declare]
  cases arguments.get? "as" with
  | none => rfl
  | some given =>
    simp only [bind_assoc]
    rw [Action.runOn_bind_ok (Action.runOn_get w)]
    refine Action.runOn_read_bind (Action.runOn_ofExcept ..) fun a => ?_
    refine Action.runOn_read_bind (runOn_reading ..) fun m => ?_
    rw [Action.runOn_bind_ok (Action.runOn_get w)]
    refine Action.runOn_read_bind (Action.runOn_ofExcept ..) fun _ => ?_
    show _ = (pure (w.expand given, a, m) >>= _ : Action World Unit).runOn w
    rw [pure_bind]
    dsimp only
    rw [addDeclared, Action.runOn_bind_ok (Action.runOn_get w)]
    -- The number that a declaration answers is dropped, so both go on alike.
    refine congrArg (Action.runOn · w) (bind_congr fun index => ?_)
    cases m.finalized with
    | false => rfl
    | true => simp only [if_true, bind_assoc, pure_bind, bind_pure_unit]

/-- What comes of a declaration: it is refused, or it is put into the table, whether or not its
targets are found then. -/
inductive Comes (id : Nat) (written : Option String) (w : World) : Except Fault Unit → World → Prop
  | refused {fault : Fault} {w' : World} (h : Declared id [] w w') :
      Comes id written w (.error fault) w'
  | registered {outcome : Except Fault Unit} {w' : World} {name : Value} {index : Nat}
      (h : Declared id [(name, index)] w w')
      (hname : ∀ text, written = some text → name.text? = some text) :
      Comes id written w outcome w'

theorem not_has_of_checkName {model : String} {m : Mapper} {name : Value} {u : Unit}
    (h : checkName model m name = .ok u) : Entries.has m.associations name = false := by
  cases hhas : Entries.has m.associations name with
  | false => rfl
  | true =>
    rw [checkName, hhas] at h
    split at h
    · cases h
    · split at h <;> cases h

/-- What is known of a declaration that is not refused: its name is new, and as it was written. -/
theorem readDeclaration_eq_ok {d : Declaration} {name : Value} {a : Association} {m : Mapper}
    (h : w.readDeclaration id d = .ok (name, a, m)) :
    (∀ text, d.writtenName? = some text → name.text? = some text) ∧
    ∃ m', w.registry.mapperOf id = .ok m' ∧ Entries.has m'.associations name = false := by
  obtain ⟨_, -, h⟩ := bind_eq_ok.mp h
  obtain ⟨arguments, harguments, h⟩ := bind_eq_ok.mp h
  split at h
  · next given hgiven =>
    obtain ⟨_, -, h⟩ := bind_eq_ok.mp h
    obtain ⟨mapper, hmapper, h⟩ := bind_eq_ok.mp h
    obtain ⟨_, hcheck, h⟩ := bind_eq_ok.mp h
    cases h
    obtain ⟨m', hm', hmapper⟩ := bind_eq_ok.mp hmapper
    cases hmapper
    refine ⟨fun text hwritten => ?_, m', hm', not_has_of_checkName hcheck⟩
    unfold Model.Declaration.writtenName? at hwritten
    split at hwritten
    · next v hv =>
      cases hgiven.symm.trans (evalNamed_get? harguments hv)
      cases given <;> cases hwritten
      rfl
    · cases hwritten
  · cases h

theorem addDeclared_comes {written : Option String} {name : Value}
    (hname : ∀ text, written = some text → name.text? = some text) (a : Association) (m : Mapper)
    (w : World) :
    Comes id written w ((addDeclared id name a m).runOn w).1 ((addDeclared id name a m).runOn w).2 := by
  rw [addDeclared, Action.runOn_bind_ok (Action.runOn_get w), Action.runOn_bind]
  rcases hadd : (addAssociation id name a).runOn w with ⟨fault | index, t⟩
  · exact .refused (.of_same (addAssociation_refused hadd))
  · obtain ⟨placed, htext, hdeclared⟩ := addAssociation_declared hadd
    have hresolve : ((if m.finalized then resolveAssociation (w.registry.classAt id).ref index
        else pure ()) : Action World Unit).Obeys SameClasses :=
      .ite (resolveAssociation_same _ _) (.pure _)
    have hsame := hdeclared.trans (.of_same (hresolve t))
    rw [List.append_nil] at hsame
    exact .registered hsame fun text hwritten => htext.trans (hname text hwritten)

theorem runDeclaration_comes (id : Nat) (d : Declaration) (w : World) :
    Comes id d.writtenName? w ((runDeclaration id d).runOn w).1
      ((runDeclaration id d).runOn w).2 := by
  rw [runDeclaration_runOn]
  cases hread : w.readDeclaration id d with
  | error fault => exact .refused (.of_same rfl)
  | ok read =>
    rw [Action.runOn_bind_ok (Action.runOn_ofExcept (.ok read) w)]
    exact addDeclared_comes (readDeclaration_eq_ok hread).1 _ _ w

theorem runDeclaration_declares (id : Nat) (d : Declaration) :
    (runDeclaration id d).Obeys (Declares id) := by
  intro w
  have hcomes := runDeclaration_comes id d w
  rcases hrun : (runDeclaration id d).runOn w with ⟨outcome, t⟩
  rw [hrun] at hcomes
  cases hcomes with
  | refused h => exact ⟨_, h⟩
  | registered h hname => exact ⟨_, h⟩

/-! ## 3. A whole hook -/

/-- Finds the targets of all associations of a class. -/
def findTargets (id : Nat) (owner : ModelRef) : Action World Unit := do
  let mapper ← reading (·.mapper id)
  mapper.associations.forM fun entry => resolveAssociation owner entry.2

theorem findTargets_same (id : Nat) (owner : ModelRef) :
    (findTargets id owner).Obeys SameClasses :=
  .bind (fun _ => rfl) fun _ => .forM fun entry => resolveAssociation_same owner entry.2

theorem runHook_runOn (id : Nat) (w : World) : (runHook id).runOn w =
    ((hookOf w.registry id).forM (runDeclaration id) >>= fun _ =>
      findTargets id (w.registry.classAt id).ref).runOn w := by
  rw [runHook, Action.runOn_bind_ok (Action.runOn_get w)]
  rfl

/-- A text is a name in the table of a class. -/
def Taken (id : Nat) (text : String) (w : World) : Prop :=
  ∃ m, w.registry.mapperOf id = .ok m ∧ ∃ entry ∈ m.associations, entry.1.text? = some text

theorem mapperOf_declared {added : List (Value × Nat)} {m : Mapper} (h : Declared id added w w')
    (hm : w.registry.mapperOf id = .ok m) : w'.registry.mapperOf id =
      .ok { m with associations := m.associations ++ added } := by
  rw [Registry.mapperOf_eq_ok] at hm ⊢
  rw [h.own, Model.ModelClass.declaring, hm]
  rfl

theorem Taken.declares {text : String} (h : Taken id text w) (hdeclares : Declares id w w') :
    Taken id text w' := by
  obtain ⟨m, hm, entry, hentry, htext⟩ := h
  obtain ⟨added, hdeclared⟩ := hdeclares
  exact ⟨_, mapperOf_declared hdeclared hm, entry, List.mem_append_left _ hentry, htext⟩

/-- A declaration under a name that is taken is refused. -/
theorem runDeclaration_taken {d : Declaration} {text : String} (hd : d.writtenName? = some text)
    (h : Taken id text w) : ∃ fault, (runDeclaration id d).runOn w = (.error fault, w) := by
  rw [runDeclaration_runOn, Action.runOn_bind, Action.runOn_ofExcept]
  cases hread : w.readDeclaration id d with
  | error fault => exact ⟨fault, rfl⟩
  | ok read =>
    obtain ⟨name, a, m⟩ := read
    obtain ⟨hname, m', hm', hnew⟩ := readDeclaration_eq_ok hread
    obtain ⟨m'', hm'', entry, hentry, htext⟩ := h
    cases hm'.symm.trans hm''
    have hhas : Entries.has m'.associations name = true :=
      List.any_eq_true.mpr ⟨entry, hentry, Value.sameKey_of_text htext (hname text hd)⟩
    rw [hnew] at hhas
    cases hhas

/-- A hook that declares a name that is taken fails. -/
theorem forM_taken {hook : List Declaration} {d : Declaration} {text : String} (hmem : d ∈ hook)
    (hd : d.writtenName? = some text) (h : Taken id text w) :
    ∃ fault w', (hook.forM (runDeclaration id)).runOn w = (.error fault, w') := by
  induction hook generalizing w with
  | nil => cases hmem
  | cons first rest ih =>
    show ∃ fault w', (runDeclaration id first >>= fun _ => rest.forM (runDeclaration id)).runOn w =
      (.error fault, w')
    rw [Action.runOn_bind]
    rcases hfirst : (runDeclaration id first).runOn w with ⟨fault | _, t⟩
    · exact ⟨fault, t, rfl⟩
    · rcases List.mem_cons.mp hmem with rfl | hrest
      · obtain ⟨fault, hfault⟩ := runDeclaration_taken hd h
        rw [hfault] at hfirst
        cases hfirst
      · exact ih hrest (h.declares ((runDeclaration_declares id first).of_run hfirst))

/-- What a run of a hook has put into the table, however it ended: nothing if the hook declares
nothing, and otherwise the first declaration before all others. -/
theorem runHook_table (id : Nat) (w : World) :
    ∃ added, Declared id added w ((runHook id).runOn w).2 ∧
      (hookOf w.registry id = [] → added = []) ∧
      ∀ d rest text, hookOf w.registry id = d :: rest → d.writtenName? = some text → added ≠ [] →
        ∃ entry ∈ added, entry.1.text? = some text := by
  let owner := (w.registry.classAt id).ref
  rw [runHook_runOn]
  cases hhook : hookOf w.registry id with
  | nil => exact ⟨[], .of_same (findTargets_same id owner w), fun _ => rfl, nofun⟩
  | cons first rest =>
    let others : Action World Unit :=
      rest.forM (runDeclaration id) >>= fun _ => findTargets id owner
    have hothers : others.Obeys (Declares id) :=
      .bind (.forM fun d => runDeclaration_declares id d) fun _ =>
        (findTargets_same id owner).mono fun _ _ h => ⟨[], .of_same h⟩
    have hfirst : ((first :: rest).forM (runDeclaration id) >>= fun _ => findTargets id owner) =
        runDeclaration id first >>= fun _ => others := bind_assoc ..
    have hcomes := runDeclaration_comes id first w
    rw [hfirst, Action.runOn_bind]
    rcases hdeclaration : (runDeclaration id first).runOn w with ⟨outcome, t⟩
    rw [hdeclaration] at hcomes
    cases hcomes with
    | refused h => exact ⟨[], h, nofun, fun _ _ _ _ _ hne => absurd rfl hne⟩
    | @registered _ _ name index h hname =>
      have hentry (more : List (Value × Nat)) (d : Declaration) (rest' : List Declaration)
          (text : String) (hd : first :: rest = d :: rest') (hwritten : d.writtenName? = some text)
          (_ : (name, index) :: more ≠ []) :
          ∃ entry ∈ (name, index) :: more, entry.1.text? = some text := by
        cases hd
        exact ⟨_, List.mem_cons_self, hname text hwritten⟩
      cases outcome with
      | error fault => exact ⟨_, h, nofun, hentry []⟩
      | ok _ =>
        obtain ⟨more, hmore⟩ := hothers t
        exact ⟨_, h.trans hmore, nofun, hentry more⟩

/-! ## 4. Flags and hooks -/

/-- The classes have the hooks that they had. -/
def SameHooks (w w' : World) : Prop := ∀ other,
  (w'.registry.classAt other).ancestry = (w.registry.classAt other).ancestry ∧
    (w'.registry.classAt other).hook = (w.registry.classAt other).hook

instance : IsPreorder World SameHooks where
  refl _ _ := ⟨rfl, rfl⟩
  trans _ _ _ h h' other := ⟨(h' other).1.trans (h other).1, (h' other).2.trans (h other).2⟩

theorem SameHooks.hookOf_eq (h : SameHooks w w') (id : Nat) :
    hookOf w'.registry id = hookOf w.registry id := by
  simp only [hookOf, (h id).1, (h _).2]

theorem Declared.sameHooks {added : List (Value × Nat)} (h : Declared id added w w') :
    SameHooks w w' := by
  intro other
  by_cases hother : other = id
  · rw [hother, h.own]
    exact ⟨rfl, rfl⟩
  · rw [h.others other hother]
    exact ⟨rfl, rfl⟩

theorem flagged_sameHooks (id : Nat) (flag : Bool) (w : World) :
    SameHooks w (flagged id flag w) := by
  intro other
  rw [flagged, updateMapper_classAt]
  split
  · next hother => exact hother ▸ ⟨rfl, rfl⟩
  · exact ⟨rfl, rfl⟩

theorem SameClasses.mapperOf_eq (h : SameClasses w w') (id : Nat) :
    w'.registry.mapperOf id = w.registry.mapperOf id := by
  rw [Registry.mapperOf, Registry.mapperOf, Registry.classAt, Registry.classAt, h]

end World
end RowMapper
