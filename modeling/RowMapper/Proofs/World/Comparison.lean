import RowMapper.Proofs.World.Likeness
import RowMapper.Proofs.World.Resolution

/-!
# The same class in two worlds

Two worlds that are alike stay so when a class with the same body and with the same bases is defined
in both: it is accepted in both, and the new classes are partners, or it is refused in both for the
same reason (`defineShared_alike`).  The proof goes along the definition.  Values are put on the
shelf, the settings and then the attributes are declared, the ancestors are put in order, the table
is named, and the key is found; each step has one lemma for both sides.
-/
namespace RowMapper.World

open Model

variable {C S K : List (Nat × Nat)} {w w' : World}

/-! ## 1. The table of a class -/

theorem inheritedAttribute?_alike (h : Alike C S K w w') {own own' : Dictionary ClassAttribute}
    (hown : Dictionary.Alike (AttributeAlike (Paired S) (Paired K) w.shelf w'.shelf) own own')
    {ancestors ancestors' : List Nat} (hancestors : List.Forall₂ (Paired C) ancestors ancestors')
    (name : String) : Option.Rel (AttributeAlike (Paired S) (Paired K) w.shelf w'.shelf name)
      (w.registry.inheritedAttribute? own ancestors name)
      (w'.registry.inheritedAttribute? own' ancestors' name) := by
  have hinherited : Option.Rel (AttributeAlike (Paired S) (Paired K) w.shelf w'.shelf name)
      (ancestors.findSome? fun ancestor => (w.registry.classAt ancestor).attributes.get? name)
      (ancestors'.findSome? fun ancestor => (w'.registry.classAt ancestor).attributes.get? name) := by
    induction hancestors with
    | nil => exact .none
    | @cons a b _ _ hab _ ih =>
      rw [List.findSome?_cons, List.findSome?_cons]
      have hfound := (h.classes a b hab).attributes.get? name
      generalize (w.registry.classAt a).attributes.get? name = found at hfound
      generalize (w'.registry.classAt b).attributes.get? name = found' at hfound
      cases hfound with
      | none => exact ih
      | some hattribute => exact .some hattribute
  have hfound := hown.get? name
  rw [Registry.inheritedAttribute?, Registry.inheritedAttribute?]
  generalize own.get? name = found at hfound
  generalize own'.get? name = found' at hfound
  cases hfound with
  | none => exact hinherited
  | some hattribute => exact .some hattribute

/-- Plain data says nothing when it stands in the place of settings. -/
theorem settingOf_datum {v : Value} (hv : (w.look v).isDatum = true) (name : String) :
    w.settingOf v name = .ok .null := by
  have hlook : w.look (w.look v) = w.look v := by
    generalize w.look v = found at hv
    cases found <;> first | rfl | cases hv
  rw [settingOf]
  dsimp only
  split
  · rfl
  · have hnone : w.attributeOf (w.look v) name = .error .noAttribute := by
      rw [attributeOf, hlook]
      generalize w.look v = found at hv
      cases found <;> first | rfl | cases hv
    generalize w.look v = found at hv hnone
    rw [hnone]
    cases found <;> first | rfl | cases hv

/-- A class with settings says what it has under the name. -/
theorem settingOf_model {ref : ModelRef}
    (hancestry : (w.registry.classAt ref.id).ancestry = [ref.id]) (name : String) :
    w.settingOf (.model ref) name =
      .ok (((w.registry.classAt ref.id).attributes.get? name).elim .null
        w.registry.attributeValue) := by
  have hattribute : w.attributeOf (.model ref) name =
      ((w.registry.classAt ref.id).attributes.get? name).elim (.error .noAttribute)
        (fun found => .ok (w.registry.attributeValue found)) := by
    show w.classAttribute ref.id name = _
    rw [classAttribute, Registry.attribute?, hancestry, Registry.inheritedAttribute?,
      List.findSome?_cons]
    cases (w.registry.classAt ref.id).attributes.get? name <;> rfl
  have hlook : w.look (.model ref) = .model ref := rfl
  simp only [settingOf, hlook, hattribute]
  cases (w.registry.classAt ref.id).attributes.get? name <;> rfl

/-- Settings that are alike say the same. -/
theorem settingOf_alike (h : Alike C S K w w') {a a' : ClassAttribute}
    (ha : AttributeAlike (Paired S) (Paired K) w.shelf w'.shelf Registry.settingsName a a') :
    ∃ v v', w.settingOf (w.registry.attributeValue a) tableSetting = .ok v ∧
      w'.settingOf (w'.registry.attributeValue a') tableSetting = .ok v' ∧
      SameDatum w.shelf w'.shelf v v' := by
  have hnull : SameDatum w.shelf w'.shelf .null .null := .of_isDatum rfl
  cases ha with
  | free hname _ => exact absurd (by decide) hname
  | datum h => exact ⟨.null, .null, settingOf_datum h.1 _, settingOf_datum h.isDatum _, hnull⟩
  | @settings ref ref' _ hpair =>
    have hsettings := h.settings ref.id ref'.id hpair
    refine ⟨_, _, settingOf_model hsettings.ancestry _, settingOf_model hsettings.ancestry' _, ?_⟩
    have hfound := hsettings.attributes.get? tableSetting
    generalize (w.registry.classAt ref.id).attributes.get? tableSetting = found at hfound
    generalize (w'.registry.classAt ref'.id).attributes.get? tableSetting = found' at hfound
    cases hfound with
    | none => exact hnull
    | some hagree =>
      obtain ⟨v, v', rfl, rfl, hsame⟩ := hagree rfl
      exact hsame

/-- What the settings of a new class say about its table. -/
def settingsTable (w : World) (c : ModelClass) : Except Fault Value :=
  match w.registry.inheritedAttribute? c.attributes c.ancestry.tail Registry.settingsName with
  | some settings => w.settingOf (w.registry.attributeValue settings) tableSetting
  | none => .ok .null

/-- What a new class itself says about its table. -/
def ownTable (w : World) (attributes : Dictionary ClassAttribute) : Value :=
  ((attributes.get? tableAttribute).map w.registry.attributeValue).getD .null

theorem tableNameOf_eq {c : ModelClass} {named : Value} (hnamed : w.settingsTable c = .ok named) :
    w.tableNameOf c = .ok (
      if (w.look named).truthy then named
      else if (w.look (w.ownTable c.attributes)).truthy then w.ownTable c.attributes
      else .str (pluralize (Text.lower c.ref.name))) := by
  have hchoose : (do
      let named ← w.settingsTable c
      if (w.look named).truthy then return named
      if (w.look (w.ownTable c.attributes)).truthy then return w.ownTable c.attributes
      return .str (pluralize (Text.lower c.ref.name)) : Except Fault Value) = w.tableNameOf c := by
    rw [tableNameOf, settingsTable]
    cases w.registry.inheritedAttribute? c.attributes c.ancestry.tail Registry.settingsName <;> rfl
  rw [← hchoose, hnamed]
  show (if (w.look named).truthy then Except.ok named
    else if (w.look (w.ownTable c.attributes)).truthy then .ok (w.ownTable c.attributes)
    else .ok (.str (pluralize (Text.lower c.ref.name)))) = _
  split
  · rfl
  · split <;> rfl

theorem ownTable_alike {attributes attributes' : Dictionary ClassAttribute}
    (h : Dictionary.Alike (AttributeAlike (Paired S) (Paired K) w.shelf w'.shelf) attributes
      attributes') :
    SameDatum w.shelf w'.shelf (w.ownTable attributes) (w'.ownTable attributes') := by
  have hfound := h.get? tableAttribute
  rw [ownTable, ownTable]
  generalize attributes.get? tableAttribute = found at hfound
  generalize attributes'.get? tableAttribute = found' at hfound
  cases hfound with
  | none => exact .of_isDatum rfl
  | some hattribute =>
    cases hattribute with
    | free hname _ => exact absurd (by decide) hname
    | datum hsame => exact hsame
    | settings hname _ => exact absurd hname (by decide)

theorem settingsTable_alike (h : Alike C S K w w') {c c' : ModelClass}
    (hancestors : List.Forall₂ (Paired C) c.ancestry.tail c'.ancestry.tail)
    (hattributes : Dictionary.Alike (AttributeAlike (Paired S) (Paired K) w.shelf w'.shelf)
      c.attributes c'.attributes) :
    ∃ v v', w.settingsTable c = .ok v ∧ w'.settingsTable c' = .ok v' ∧
      SameDatum w.shelf w'.shelf v v' := by
  have hsettings := inheritedAttribute?_alike h hattributes hancestors Registry.settingsName
  rw [settingsTable, settingsTable]
  generalize w.registry.inheritedAttribute? c.attributes _ _ = settings at hsettings
  generalize w'.registry.inheritedAttribute? c'.attributes _ _ = settings' at hsettings
  cases hsettings with
  | none => exact ⟨.null, .null, rfl, rfl, .of_isDatum rfl⟩
  | some hattribute => exact settingOf_alike h hattribute

/-- A new class has the same table on both sides, and the table is always found. -/
theorem tableNameOf_alike (h : Alike C S K w w') {c c' : ModelClass}
    (hname : c.ref.name = c'.ref.name)
    (hancestors : List.Forall₂ (Paired C) c.ancestry.tail c'.ancestry.tail)
    (hattributes : Dictionary.Alike (AttributeAlike (Paired S) (Paired K) w.shelf w'.shelf)
      c.attributes c'.attributes) :
    ∃ v v', w.tableNameOf c = .ok v ∧ w'.tableNameOf c' = .ok v' ∧
      SameDatum w.shelf w'.shelf v v' := by
  have hown : SameDatum w.shelf w'.shelf (w.ownTable c.attributes) (w'.ownTable c'.attributes) :=
    ownTable_alike hattributes
  have hlookOwn : w'.look (w'.ownTable c'.attributes) = w.look (w.ownTable c.attributes) := hown.2
  obtain ⟨named, named', hnamed, hnamed', hsame⟩ := settingsTable_alike h hancestors hattributes
  have hlook : w'.look named' = w.look named := hsame.2
  refine ⟨_, _, tableNameOf_eq hnamed, tableNameOf_eq hnamed', ?_⟩
  rw [hlook, hlookOwn, hname]
  split
  · exact hsame
  · split
    · exact hown
    · exact .of_isDatum rfl

/-! ## 2. A new class -/

/-- A column that two classes of a pair hold under the same name. -/
def SharedColumn (C : List (Nat × Nat)) (w w' : World) (i j : Nat) : Prop :=
  ∃ a b name, Paired C a b ∧
    (w.registry.classAt a).attributes.get? name = some (.column i) ∧
    (w'.registry.classAt b).attributes.get? name = some (.column j)

/-- Two definitions of the same class: of the same name, with bases that are pairs, with settings
and attributes that are alike.  Where the bodies use columns of other classes again, these are
columns of pairs. -/
structure SameBody (C : List (Nat × Nat)) (w w' : World) (d d' : Definition) : Prop where
  name_eq : d.name = d'.name
  bases : List.Forall₂ (fun key key' => ∃ a b, Paired C a b ∧ w.registry.find key = .ok a ∧
    w'.registry.find key' = .ok b) d.bases d'.bases
  settings : Option.Rel (Dictionary.Alike (SettingAlike w.shelf w'.shelf)) d.settings d'.settings
  attributes : Dictionary.Alike
    (BodyAlike (fun _ _ => False) (SharedColumn C w w') w.shelf w'.shelf) d.attributes d'.attributes

/-- Columns that classes of a pair hold under the same name are a pair. -/
theorem Alike.paired_of_shared (h : Alike C S K w w') {i j : Nat}
    (hshared : SharedColumn C w w' i j) : Paired K i j := by
  obtain ⟨a, b, name, hab, ha, hb⟩ := hshared
  have hfound := (h.classes a b hab).attributes.get? name
  rw [ha, hb] at hfound
  cases hfound with
  | some hattribute =>
    cases hattribute.column? with
    | some hpair => exact hpair

theorem mapM_find {r r' : Registry} {keys keys' : List String}
    (h : List.Forall₂ (fun key key' => ∃ a b, Paired C a b ∧ r.find key = .ok a ∧
      r'.find key' = .ok b) keys keys') :
    ∃ bases bases', keys.mapM r.find = .ok bases ∧ keys'.mapM r'.find = .ok bases' ∧
      List.Forall₂ (Paired C) bases bases' := by
  induction h with
  | nil => exact ⟨[], [], rfl, rfl, .nil⟩
  | cons hkey _ ih =>
    obtain ⟨a, b, hab, ha, hb⟩ := hkey
    obtain ⟨bases, bases', hbases, hbases', hpairs⟩ := ih
    refine ⟨a :: bases, b :: bases', ?_, ?_, .cons hab hpairs⟩
    · rw [List.mapM_cons, ha, hbases]
      rfl
    · rw [List.mapM_cons, hb, hbases']
      rfl

/-- The attributes of a class with settings that are alike. -/
theorem addAttributes_settings (r r' : Registry) {s s' : Shelf} {settings settings' : Dictionary Value}
    (h : Dictionary.Alike (SettingAlike s s') settings settings') :
    Dictionary.Alike (SettingsAgree s s')
      (r.addAttributes (settings.map fun entry => (entry.1, .plain entry.2))).2
      (r'.addAttributes (settings'.map fun entry => (entry.1, .plain entry.2))).2 := by
  induction h generalizing r r' with
  | nil => exact .nil
  | @cons entry entry' _ _ hentry _ ih =>
    obtain ⟨name, v⟩ := entry
    obtain ⟨name', v'⟩ := entry'
    obtain ⟨rfl, hsame⟩ := hentry
    refine .cons (fun hname => ?_) (ih _ _)
    have hdatum := hsame hname
    exact ⟨v, v', congrArg Prod.snd (addAttribute_datum r name hdatum.1),
      congrArg Prod.snd (addAttribute_datum r' name hdatum.isDatum), hdatum⟩

theorem addSettings_enlarged {watched : Nat → Prop} (w : World) (home : String)
    (settings : Dictionary Value) :
    Enlarged watched w { w with registry := (w.registry.addSettings home settings).1 } :=
  .of_registry
    (trans_of Registry.Extends (Registry.addAttributes_extends _ _)
      (Registry.addClass_extends _ _)).classes
    (trans_of Registry.KeepsKeys (Registry.addAttributes_keepsKeys _ _)
      (Registry.addClass_keepsKeys _ _))

theorem classAt_addSettings (r : Registry) (home : String) (settings : Dictionary Value) :
    (r.addSettings home settings).1.classAt r.classes.length = {
      ref := (r.addSettings home settings).2
      ancestry := [r.classes.length]
      attributes := (r.addAttributes ((Dictionary.ofList settings).map fun entry =>
        (entry.1, .plain entry.2))).2 } := by
  rw [Registry.addSettings]
  dsimp only
  rw [← Registry.addAttributes_classes r ((Dictionary.ofList settings).map fun entry =>
    (entry.1, .plain entry.2)), Registry.classAt_addClass_self]

/-- Settings that are alike make a new pair of classes with settings. -/
theorem addSettings_alike (h : Alike C S K w w') (home home' : String)
    {settings settings' : Dictionary Value}
    (hsettings : Dictionary.Alike (SettingAlike w.shelf w'.shelf) settings settings') :
    Alike C ((w.registry.classes.length, w'.registry.classes.length) :: S) K
      { w with registry := (w.registry.addSettings home settings).1 }
      { w' with registry := (w'.registry.addSettings home' settings').1 } := by
  have hadded := h.enlarge (addSettings_enlarged w home settings)
    (addSettings_enlarged w' home' settings')
  have hlength (r : Registry) (home : String) (settings : Dictionary Value) :
      (r.addSettings home settings).1.classes.length = r.classes.length + 1 := by
    simp [Registry.addSettings, Registry.addClass, Registry.addAttributes_classes]
  refine { hadded with
    settingsBelow := ?_
    classes := fun a b hab => (hadded.classes a b hab).mono (List.Subset.refl C)
      (List.subset_cons_self _ S) (List.Subset.refl K) List.prefix_rfl List.prefix_rfl
    settings := fun a b hab => ?_ }
  · show Below _ (w.registry.addSettings home settings).1.classes.length
      (w'.registry.addSettings home' settings').1.classes.length
    rw [hlength, hlength]
    exact h.settingsBelow.cons
  · rcases paired_cons.mp hab with ⟨rfl, rfl⟩ | hab
    · show SettingsAlike w.shelf w'.shelf _ _
        ((w.registry.addSettings home settings).1.classAt _)
        ((w'.registry.addSettings home' settings').1.classAt _)
      rw [classAt_addSettings, classAt_addSettings]
      exact ⟨rfl, rfl, addAttributes_settings _ _ hsettings.ofList⟩
    · exact hadded.settings a b hab

/-- The bodies of the two definitions go side by side, with their settings made into classes. -/
theorem bodyOf_alike (h : Alike C S K w w') {d d' : Definition} (hd : SameBody C w w' d d') :
    ∃ S', S ⊆ S' ∧ Alike C S' K { w with registry := (w.registry.bodyOf d).1 }
        { w' with registry := (w'.registry.bodyOf d').1 } ∧
      Dictionary.Alike (BodyAlike (Paired S') (Paired K) w.shelf w'.shelf)
        (w.registry.bodyOf d).2 (w'.registry.bodyOf d').2 := by
  have hattributes (S' : List (Nat × Nat)) :
      Dictionary.Alike (BodyAlike (Paired S') (Paired K) w.shelf w'.shelf) d.attributes
        d'.attributes :=
    hd.attributes.imp fun _ _ _ hbody => hbody.mono (fun _ _ hnone => hnone.elim)
      (fun _ _ => h.paired_of_shared) List.prefix_rfl List.prefix_rfl
  have hsettings := hd.settings
  rw [Registry.bodyOf, Registry.bodyOf]
  generalize d.settings = settings at hsettings
  generalize d'.settings = settings' at hsettings
  cases hsettings with
  | none => exact ⟨S, List.Subset.refl S, h, hattributes S⟩
  | some hsettings =>
    exact ⟨_, List.subset_cons_self _ S, addSettings_alike h d.home d'.home hsettings,
      .cons (.settings rfl (paired_cons.mpr (.inl ⟨rfl, rfl⟩))) (hattributes _)⟩

/-- Two new classes that are alike, each with the registry to which it can be added.  Each new pair
of columns is one that the classes declare. -/
structure NewAlike (C S K K' : List (Nat × Nat)) (w w' : World) (new new' : Registry × ModelClass) :
    Prop where
  isSubset : K ⊆ K'
  worlds : Alike C S K' { w with registry := new.1 } { w' with registry := new'.1 }
  name_eq : new.2.ref.name = new'.2.ref.name
  id_eq : new.2.ref.id = new.1.classes.length ∧ new'.2.ref.id = new'.1.classes.length
  ancestry : ∃ rest rest', new.2.ancestry = new.2.ref.id :: rest ∧
    new'.2.ancestry = new'.2.ref.id :: rest' ∧ List.Forall₂ (Paired C) rest rest'
  attributes : Dictionary.Alike (AttributeAlike (Paired S) (Paired K') w.shelf w'.shelf)
    new.2.attributes new'.2.attributes
  mapper_eq : new.2.mapper = none ∧ new'.2.mapper = none
  held : ∀ i j, Paired K' i j → Paired K i j ∨ ∃ name,
    new.2.attributes.get? name = some (.column i) ∧ new'.2.attributes.get? name = some (.column j)

/-- The same body makes the same class, or is refused for the same reason. -/
theorem newClass_alike (h : Alike C S K w w') {d d' : Definition} (hd : SameBody C w w' d d') :
    OutcomesAlike (fun new new' => ∃ S' K', S ⊆ S' ∧ NewAlike C S' K K' w w' new new')
      (w.registry.newClass d) (w'.registry.newClass d') := by
  obtain ⟨bases, bases', hbases, hbases', hpairs⟩ := mapM_find hd.bases
  obtain ⟨S', hS, hextended, hbody⟩ := bodyOf_alike h hd
  rw [Registry.newClass_eq hbases, Registry.newClass_eq hbases']
  generalize w.registry.bodyOf d = made at hextended hbody ⊢
  generalize w'.registry.bodyOf d' = made' at hextended hbody ⊢
  obtain ⟨r, body⟩ := made
  obtain ⟨r', body'⟩ := made'
  have hancestors : List.Forall₂ (List.Forall₂ (Paired C))
      (bases.map fun base => (r.classAt base).ancestry)
      (bases'.map fun base => (r'.classAt base).ancestry) :=
    List.rel_map (fun a b hab => (hextended.classes a b hab).ancestry) hpairs
  have horder := linearize_alike h.oneToOne hpairs hancestors r.classes.length r'.classes.length
  dsimp only
  generalize linearize r.classes.length bases _ = order at horder ⊢
  generalize linearize r'.classes.length bases' _ = order' at horder ⊢
  cases horder with
  | none => exact .error _
  | some horder =>
    obtain ⟨rest, rest', rfl, rfl, hrest⟩ := horder
    obtain ⟨K', hK, hcolumns, hattributes, hheld⟩ := addAttributes_alike hextended.columns
      hbody.ofList (Dictionary.nodup_names_ofList body)
    have hclasses := Registry.addAttributes_classes r (Dictionary.ofList body)
    have hclasses' := Registry.addAttributes_classes r' (Dictionary.ofList body')
    exact .ok ⟨S', K', hS, {
      isSubset := hK
      worlds := hextended.withColumns hclasses hclasses' hK hcolumns
      name_eq := hd.name_eq
      id_eq := ⟨congrArg List.length hclasses.symm, congrArg List.length hclasses'.symm⟩
      ancestry := ⟨rest, rest', rfl, rfl, hrest⟩
      attributes := hattributes
      mapper_eq := ⟨rfl, rfl⟩
      held := hheld }⟩

/-! ## 3. Adding the class -/

theorem mem_collect {select : ClassAttribute → Option Nat} {own : Dictionary ClassAttribute}
    {name : String} {a : ClassAttribute} (ha : own.get? name = some a) {index : Nat}
    (hselect : select a = some index) (inherited : List (Dictionary ClassAttribute)) :
    (Registry.collect select (own :: inherited)).get? name ≠ none := by
  refine Dictionary.get?_ofList_ne_none (a := index) ?_
  refine List.mem_flatMap.mpr ⟨own, by simp, ?_⟩
  exact List.mem_filterMap.mpr ⟨(name, a), Dictionary.mem_of_get? ha, by rw [hselect]; rfl⟩

/-- The columns that a class declares stay its own when its key is found. -/
theorem resolveKey_keeps {r : Registry} {model : String} {attributes : Dictionary ClassAttribute}
    {columns : Dictionary Nat} {keyed : Registry.Keyed}
    (h : r.resolveKey model attributes columns = .ok keyed) {name : String} {a : ClassAttribute}
    (ha : attributes.get? name = some a) (hcolumn : columns.get? name ≠ none) :
    keyed.attributes.get? name = some a := by
  rw [Registry.resolveKey] at h
  split at h
  · cases h
    exact ha
  · split at h
    · cases h
      exact ha
    · next hnone =>
      have hname : Registry.implicitKey ≠ name := fun heq => hcolumn (heq ▸ hnone)
      cases h
      exact (Dictionary.get?_insert_of_ne attributes hname _).trans ha
  · cases h

/-- Two classes that are alike make a new pair. -/
theorem Alike.addClass (h : Alike C S K w w') {c c' : ModelClass}
    (hclass : ClassAlike ((w.registry.classes.length, w'.registry.classes.length) :: C) S K w.shelf
      w'.shelf c c') :
    Alike ((w.registry.classes.length, w'.registry.classes.length) :: C) S K
      { w with registry := w.registry.addClass c } { w' with registry := w'.registry.addClass c' } := by
  have hadded := h.enlarge
    (.of_registry (Registry.addClass_extends w.registry c).classes
      (Registry.addClass_keepsKeys w.registry c))
    (.of_registry (Registry.addClass_extends w'.registry c').classes
      (Registry.addClass_keepsKeys w'.registry c'))
  refine { hadded with
    oneToOne := h.oneToOne.cons h.below
    below := ?_
    root := paired_cons.mpr (.inr h.root)
    classes := fun a b hab => ?_ }
  · show Below _ (w.registry.addClass c).classes.length (w'.registry.addClass c').classes.length
    rw [Registry.addClass, Registry.addClass, List.length_append, List.length_append]
    exact h.below.cons
  · rcases paired_cons.mp hab with ⟨rfl, rfl⟩ | hab
    · show ClassAlike _ S K w.shelf w'.shelf ((w.registry.addClass c).classAt _)
        ((w'.registry.addClass c').classAt _)
      rw [Registry.classAt_addClass_self, Registry.classAt_addClass_self]
      exact hclass
    · exact (hadded.classes a b hab).mono (List.subset_cons_self _ C) (List.Subset.refl S)
        (List.Subset.refl K) List.prefix_rfl List.prefix_rfl

/-- Two classes that were added, with the registries after that. -/
def Added (C S K K' : List (Nat × Nat)) (w w' : World) (id id' : Nat) (r r' : Registry) : Prop :=
  Alike ((id, id') :: C) S K' { w with registry := r } { w' with registry := r' } ∧
    ∀ i j, Paired K' i j → Paired K i j ∨ ∃ name,
      (r.classAt id).attributes.get? name = some (.column i) ∧
      (r'.classAt id').attributes.get? name = some (.column j)

variable {K' : List (Nat × Nat)} {new new' : Registry × ModelClass}

/-- With the new classes themselves the orders of their ancestors are alike. -/
theorem NewAlike.ancestry_alike (h : NewAlike C S K K' w w' new new') :
    List.Forall₂ (Paired ((new.1.classes.length, new'.1.classes.length) :: C)) new.2.ancestry
      new'.2.ancestry := by
  obtain ⟨rest, rest', horder, horder', hrest⟩ := h.ancestry
  rw [horder, horder', h.id_eq.1, h.id_eq.2]
  exact .cons (paired_cons.mpr (.inl ⟨rfl, rfl⟩))
    (hrest.imp fun _ _ hab => paired_cons.mpr (.inr hab))

/-- Whether a new class is a model is the same on both sides. -/
theorem NewAlike.isModel_eq (h : NewAlike C S K K' w w' new new') :
    Registry.isModel new.2 = Registry.isModel new'.2 :=
  contains_alike (h.worlds.oneToOne.cons h.worlds.below) (paired_cons.mpr (.inr h.worlds.root))
    h.ancestry_alike

/-- A mixin is added without a mapper. -/
theorem NewAlike.addMixin (h : NewAlike C S K K' w w' new new') :
    Added C S K K' w w' new.2.ref.id new'.2.ref.id (new.1.addClass new.2)
      (new'.1.addClass new'.2) := by
  have hmapper : Option.Rel (MapperAlike K' w.shelf w'.shelf) new.2.mapper new'.2.mapper := by
    rw [h.mapper_eq.1, h.mapper_eq.2]
    exact .none
  have hworlds := h.worlds
  rw [Added, h.id_eq.1, h.id_eq.2, Registry.classAt_addClass_self, Registry.classAt_addClass_self]
  exact ⟨hworlds.addClass ⟨h.ancestry_alike, h.attributes, hmapper⟩, h.held⟩

/-- A model gets the same key on both sides, or is refused for the same reason. -/
theorem NewAlike.addModel (h : NewAlike C S K K' w w' new new') {table table' : Value}
    (htable : SameDatum w.shelf w'.shelf table table') :
    OutcomesAlike (fun r r' => ∃ K'', Added C S K K'' w w' new.2.ref.id new'.2.ref.id r r')
      (new.1.addModel new.2 table) (new'.1.addModel new'.2 table') := by
  have hinherited : List.Forall₂
      (Dictionary.Alike (AttributeAlike (Paired S) (Paired K') w.shelf w'.shelf))
      (new.2.ancestry.tail.map fun ancestor => (new.1.classAt ancestor).attributes)
      (new'.2.ancestry.tail.map fun ancestor => (new'.1.classAt ancestor).attributes) := by
    obtain ⟨rest, rest', horder, horder', hrest⟩ := h.ancestry
    rw [horder, horder']
    exact List.rel_map (fun a b hab => (h.worlds.classes a b hab).attributes) hrest
  have hcolumns := Registry.collect_alike (Q := fun _ => Paired K')
    (fun _ _ _ hattribute => AttributeAlike.column? hattribute) (.cons h.attributes hinherited)
  have hresolved := resolveKey_alike h.worlds.columns new.2.ref.name h.attributes hcolumns
  rw [Registry.addModel, Registry.addModel, ← h.name_eq]
  dsimp only
  generalize hkeyed : new.1.resolveKey new.2.ref.name _ _ = keyed at hresolved
  generalize hkeyed' : new'.1.resolveKey new.2.ref.name _ _ = keyed' at hresolved
  cases hresolved with
  | error fault => exact .error fault
  | @ok keyed keyed' hpair =>
    obtain ⟨K'', hpair⟩ := hpair
    have hclasses := Registry.resolveKey_classes hkeyed
    have hclasses' := Registry.resolveKey_classes hkeyed'
    have hworlds := h.worlds.withColumns hclasses hclasses' hpair.isSubset hpair.registry
    have hancestry := h.ancestry_alike
    have hid : new.2.ref.id = keyed.registry.classes.length := by rw [hclasses, h.id_eq.1]
    have hid' : new'.2.ref.id = keyed'.registry.classes.length := by rw [hclasses', h.id_eq.2]
    rw [← hclasses, ← hclasses'] at hancestry
    refine .ok ⟨K'', ?_⟩
    rw [Added, hid, hid', Registry.classAt_addClass_self, Registry.classAt_addClass_self]
    refine ⟨hworlds.addClass ⟨hancestry, hpair.attributes,
      .some ⟨htable, hpair.columns, hpair.key_eq⟩⟩, fun i j hij => ?_⟩
    rcases hpair.held i j hij with hij | ⟨hi, hj⟩
    · rcases h.held i j hij with hij | ⟨name, hi, hj⟩
      · exact .inl hij
      · exact .inr ⟨name, resolveKey_keeps hkeyed hi (mem_collect hi rfl _),
          resolveKey_keeps hkeyed' hj (mem_collect hj rfl _)⟩
    · exact .inr ⟨Registry.implicitKey, hi, hj⟩

/-- The same new class is added on both sides, or refused for the same reason. -/
theorem NewAlike.addClass (h : NewAlike C S K K' w w' new new') :
    OutcomesAlike (fun r r' => ∃ K'', Added C S K K'' w w' new.2.ref.id new'.2.ref.id r r')
      (({ w with registry := new.1 } : World).addClass new.2)
      (({ w' with registry := new'.1 } : World).addClass new'.2) := by
  rw [World.addClass, World.addClass, h.isModel_eq]
  split
  · obtain ⟨rest, rest', horder, horder', hrest⟩ := h.ancestry
    have hancestors : List.Forall₂ (Paired C) new.2.ancestry.tail new'.2.ancestry.tail := by
      rw [horder, horder']
      exact hrest
    obtain ⟨table, table', htable, htable', hsame⟩ :=
      tableNameOf_alike h.worlds h.name_eq hancestors h.attributes
    rw [htable, htable']
    exact h.addModel hsame
  · exact .ok ⟨K', h.addMixin⟩

/-! ## 4. Defining -/

/-- How the same definition ends on both sides: with classes that are a new pair, or refused for the
same reason. -/
inductive DefinedAlike (C S K : List (Nat × Nat)) :
    Except Fault Nat × World → Except Fault Nat × World → Prop
  | accepted {id id' : Nat} {v v' : World} {S' K' : List (Nat × Nat)}
      (worlds : Alike ((id, id') :: C) S' K' v v')
      (held : ∀ i j, Paired K' i j → Paired K i j ∨ ∃ name,
        (v.registry.classAt id).attributes.get? name = some (.column i) ∧
        (v'.registry.classAt id').attributes.get? name = some (.column j)) :
    DefinedAlike C S K (.ok id, v) (.ok id', v')
  | refused {fault : Fault} {v v' : World} (worlds : Alike C S K v v') :
    DefinedAlike C S K (.error fault, v) (.error fault, v')

theorem define_alike (h : Alike C S K w w') {d d' : Definition} (hd : SameBody C w w' d d') :
    DefinedAlike C S K ((define d).runOn w) ((define d').runOn w') := by
  have hnew := newClass_alike h hd
  rw [define_runOn, define_runOn]
  generalize hmade : w.registry.newClass d = made at hnew ⊢
  generalize hmade' : w'.registry.newClass d' = made' at hnew ⊢
  cases hnew with
  | error fault => exact .refused h
  | @ok new new' hpair =>
    obtain ⟨S', K', -, hpair⟩ := hpair
    have hadded := hpair.addClass
    dsimp only
    generalize World.addClass _ new.2 = added at hadded ⊢
    generalize World.addClass _ new'.2 = added' at hadded ⊢
    cases hadded with
    | error fault =>
      exact .refused (h.enlarge
        (.of_registry (Registry.newClass_extends hmade).classes (Registry.newClass_keepsKeys hmade))
        (.of_registry (Registry.newClass_extends hmade').classes
          (Registry.newClass_keepsKeys hmade')))
    | ok hadded =>
      obtain ⟨K'', hworlds, hheld⟩ := hadded
      refine .accepted (hworlds.enlarge (.of_registry List.prefix_rfl (.of_eq rfl))
        (.of_registry List.prefix_rfl (.of_eq rfl))) hheld

/-! ## 5. Defining with values on the shelf -/

section Storing

variable {settings columns : Nat → Nat → Prop}

theorem store_runOn (v : Value) (w : World) : (store v).runOn w =
    (.ok (Shelf.store v w.shelf).1, { w with shelf := (Shelf.store v w.shelf).2 }) := rfl

/-- A column keeps whether it is a key. -/
theorem storeAttribute_column (c : Column) (w : World) : ∃ c₁ v,
    (storeAttribute (.column c)).runOn w = (.ok (.column c₁), v) ∧ c₁.isKey = c.isKey := by
  rw [storeAttribute]
  split
  · exact ⟨_, _, rfl, rfl⟩
  · exact ⟨_, _, rfl, rfl⟩

theorem storeAttribute_association (a : Association) (w : World) : ∃ a₁ v,
    (storeAttribute (.association a)).runOn w = (.ok (.association a₁), v) := by
  rw [storeAttribute, storeAssociation]
  cases a.kind <;> exact ⟨_, _, rfl⟩

theorem storeAttribute_plain (v : Value) (w : World) :
    (storeAttribute (.plain v)).runOn w = (.ok (.plain (Shelf.store v w.shelf).1),
      { w with shelf := (Shelf.store v w.shelf).2 }) := rfl

/-- What is declared alike is declared alike with its values on the shelf. -/
theorem storeAttribute_alike {name : String} {body body' : AttributeBody}
    (h : BodyAlike settings columns w.shelf w'.shelf name body body') :
    ∃ stored stored' v v', (storeAttribute body).runOn w = (.ok stored, v) ∧
      (storeAttribute body').runOn w' = (.ok stored', v') ∧
      BodyAlike settings columns v.shelf v'.shelf name stored stored' := by
  cases h with
  | @column c c' hname hkey =>
    obtain ⟨c₁, v, hrun, hc⟩ := storeAttribute_column c w
    obtain ⟨c₁', v', hrun', hc'⟩ := storeAttribute_column c' w'
    exact ⟨_, _, v, v', hrun, hrun', .column hname (by rw [hc, hc', hkey])⟩
  | again hname hpair =>
    exact ⟨_, _, _, _, storeAttribute_plain _ w, storeAttribute_plain _ w', .again hname hpair⟩
  | @association a a' hname =>
    obtain ⟨a₁, v, hrun⟩ := storeAttribute_association a w
    obtain ⟨a₁', v', hrun'⟩ := storeAttribute_association a' w'
    exact ⟨_, _, v, v', hrun, hrun', .association hname⟩
  | plain hname hv hv' =>
    exact ⟨_, _, _, _, storeAttribute_plain _ w, storeAttribute_plain _ w',
      .plain hname (fun ref h => hv ref (Shelf.store_eq_column h))
        (fun ref h => hv' ref (Shelf.store_eq_column h))⟩
  | datum hsame =>
    exact ⟨_, _, _, _, storeAttribute_plain _ w, storeAttribute_plain _ w', .datum hsame.store⟩
  | settings hname hpair =>
    exact ⟨_, _, _, _, storeAttribute_plain _ w, storeAttribute_plain _ w', .settings hname hpair⟩

theorem storeAttributes_alike {body body' : List (String × AttributeBody)}
    (h : Dictionary.Alike (BodyAlike settings columns w.shelf w'.shelf) body body') :
    ∃ stored stored' v v', (storeAttributes body).runOn w = (.ok stored, v) ∧
      (storeAttributes body').runOn w' = (.ok stored', v') ∧
      Dictionary.Alike (BodyAlike settings columns v.shelf v'.shelf) stored stored' := by
  induction body generalizing body' w w' with
  | nil =>
    cases h
    exact ⟨[], [], w, w', rfl, rfl, .nil⟩
  | cons entry rest ih =>
    rcases h with _ | @⟨_, entry', _, rest', hentry, hrest⟩
    obtain ⟨name, first⟩ := entry
    obtain ⟨name', first'⟩ := entry'
    obtain ⟨rfl, hfirst⟩ := hentry
    obtain ⟨one, one', v, v', hrun, hrun', hone⟩ := storeAttribute_alike hfirst
    have hv := (storeAttribute_still first).of_run hrun
    have hv' := (storeAttribute_still first').of_run hrun'
    obtain ⟨others, others', t, t', hruns, hruns', hothers⟩ := ih (hrest.imp fun _ _ hbody =>
      ⟨hbody.1, hbody.2.mono (fun _ _ => id) (fun _ _ => id) hv.shelf_prefix hv'.shelf_prefix⟩)
    have ht := (storeAttributes_still rest).of_run hruns
    have ht' := (storeAttributes_still rest').of_run hruns'
    refine ⟨(name, one) :: others, (name, one') :: others', t, t', ?_, ?_,
      .cons (hone.mono (fun _ _ => id) (fun _ _ => id) ht.shelf_prefix ht'.shelf_prefix) hothers⟩
    · rw [storeAttributes, Action.runOn_bind_ok hrun, Action.runOn_bind_ok hruns]
      rfl
    · rw [storeAttributes, Action.runOn_bind_ok hrun', Action.runOn_bind_ok hruns']
      rfl

theorem storeSetting_alike {name : String} {a a' : Value}
    (h : SettingAlike w.shelf w'.shelf name a a') :
    ∃ stored stored' v v', (store a).runOn w = (.ok stored, v) ∧
      (store a').runOn w' = (.ok stored', v') ∧ SettingAlike v.shelf v'.shelf name stored stored' :=
  ⟨_, _, _, _, store_runOn a w, store_runOn a' w', fun hname => (h hname).store⟩

theorem storeNamed_alike {named named' : Dictionary Value}
    (h : Dictionary.Alike (SettingAlike w.shelf w'.shelf) named named') :
    ∃ stored stored' v v', (storeNamed named).runOn w = (.ok stored, v) ∧
      (storeNamed named').runOn w' = (.ok stored', v') ∧
      Dictionary.Alike (SettingAlike v.shelf v'.shelf) stored stored' := by
  induction named generalizing named' w w' with
  | nil =>
    cases h
    exact ⟨[], [], w, w', rfl, rfl, .nil⟩
  | cons entry rest ih =>
    rcases h with _ | @⟨_, entry', _, rest', hentry, hrest⟩
    obtain ⟨name, first⟩ := entry
    obtain ⟨name', first'⟩ := entry'
    obtain ⟨rfl, hfirst⟩ := hentry
    obtain ⟨one, one', v, v', hrun, hrun', hone⟩ := storeSetting_alike hfirst
    have hv := (store_still first).of_run hrun
    have hv' := (store_still first').of_run hrun'
    obtain ⟨others, others', t, t', hruns, hruns', hothers⟩ := ih (hrest.imp fun _ _ hvalue =>
      ⟨hvalue.1, fun hname => (hvalue.2 hname).mono hv.shelf_prefix hv'.shelf_prefix⟩)
    have ht := (storeNamed_still rest).of_run hruns
    have ht' := (storeNamed_still rest').of_run hruns'
    refine ⟨(name, one) :: others, (name, one') :: others', t, t', ?_, ?_,
      .cons (fun hname => (hone hname).mono ht.shelf_prefix ht'.shelf_prefix) hothers⟩
    · rw [storeNamed, Action.runOn_bind_ok hrun, Action.runOn_bind_ok hruns]
      rfl
    · rw [storeNamed, Action.runOn_bind_ok hrun', Action.runOn_bind_ok hruns']
      rfl

theorem storeSettings_alike {settings settings' : Option (Dictionary Value)}
    (h : Option.Rel (Dictionary.Alike (SettingAlike w.shelf w'.shelf)) settings settings') :
    ∃ stored stored' v v', (storeSettings settings).runOn w = (.ok stored, v) ∧
      (storeSettings settings').runOn w' = (.ok stored', v') ∧
      Option.Rel (Dictionary.Alike (SettingAlike v.shelf v'.shelf)) stored stored' := by
  cases h with
  | none => exact ⟨none, none, w, w', rfl, rfl, .none⟩
  | some hnamed =>
    obtain ⟨stored, stored', v, v', hrun, hrun', hstored⟩ := storeNamed_alike hnamed
    refine ⟨some stored, some stored', v, v', ?_, ?_, .some hstored⟩
    · rw [storeSettings, Action.runOn_bind_ok hrun]
      rfl
    · rw [storeSettings, Action.runOn_bind_ok hrun']
      rfl

end Storing

/-- The same definition is the same when its values lie on the shelf. -/
theorem defineShared_stores {d d' : Definition} (hd : SameBody C w w' d d') :
    ∃ stored stored' v v', (defineShared d).runOn w = (define stored).runOn v ∧
      (defineShared d').runOn w' = (define stored').runOn v' ∧ Still w v ∧ Still w' v' ∧
      SameBody C v v' stored stored' := by
  obtain ⟨settings, settings', v, v', hrun, hrun', hsettings⟩ := storeSettings_alike hd.settings
  have hv := (storeSettings_still d.settings).of_run hrun
  have hv' := (storeSettings_still d'.settings).of_run hrun'
  obtain ⟨attributes, attributes', t, t', hruns, hruns', hattributes⟩ :=
    storeAttributes_alike (hd.attributes.imp fun _ _ _ hbody =>
      hbody.mono (fun _ _ => id) (fun _ _ => id) hv.shelf_prefix hv'.shelf_prefix)
  have ht := (storeAttributes_still d.attributes).of_run hruns
  have ht' := (storeAttributes_still d'.attributes).of_run hruns'
  have hregistry := ht.registry_eq.trans hv.registry_eq
  have hregistry' := ht'.registry_eq.trans hv'.registry_eq
  refine ⟨{ d with settings, attributes },
    { d' with settings := settings', attributes := attributes' }, t, t', ?_, ?_,
    trans_of Still hv ht, trans_of Still hv' ht', hd.name_eq, ?_, ?_, ?_⟩
  · rw [defineShared_eq, Action.runOn_bind_ok hrun, Action.runOn_bind_ok hruns]
  · rw [defineShared_eq, Action.runOn_bind_ok hrun', Action.runOn_bind_ok hruns']
  · rw [hregistry, hregistry']
    exact hd.bases
  · exact Dictionary.rel_imp (fun _ _ hnamed => hnamed.imp fun _ _ _ hsame hname =>
      (hsame hname).mono ht.shelf_prefix ht'.shelf_prefix) hsettings
  · refine hattributes.imp fun _ _ _ hbody => hbody.mono (fun _ _ => id) (fun i j hshared => ?_)
      List.prefix_rfl List.prefix_rfl
    rw [SharedColumn, hregistry, hregistry']
    exact hshared

/-- The same definition ends alike in two worlds that are alike. -/
theorem defineShared_alike (h : Alike C S K w w') {d d' : Definition}
    (hd : SameBody C w w' d d') :
    DefinedAlike C S K ((defineShared d).runOn w) ((defineShared d').runOn w') := by
  obtain ⟨stored, stored', v, v', hrun, hrun', hv, hv', hstored⟩ := defineShared_stores hd
  rw [hrun, hrun']
  exact define_alike (h.enlarge (.of_still hv) (.of_still hv')) hstored

end RowMapper.World
