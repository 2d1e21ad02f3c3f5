import RowMapper.Proofs.Model.Linearization
import RowMapper.Proofs.Model.Pairing
import RowMapper.Proofs.World.Holding
import RowMapper.Proofs.World.Still

/-!
# Worlds with classes in common

Two worlds can have classes in common although the classes have other numbers in each, and other
columns and values besides.  `Alike C S K w w'` says which classes, settings and columns are
partners, and that partners are alike: classes have partners as ancestors, columns that are partners
under the same names, and tables that are looked up as the same plain data.  What is added to either
world leaves them alike, as long as no column of a pair is marked (`Alike.enlarge`).
-/
namespace RowMapper

/-! ## 1. Values -/

namespace Shelf

/-- What is looked up as plain data is looked up so on a longer shelf too. -/
theorem look_of_isPrefix {s t : Shelf} (h : s <+: t) {v : Value}
    (hv : (s.look v).isDatum = true) : t.look v = s.look v := by
  cases v with
  | shared number =>
    show t.valueAt number = s.valueAt number
    change (s.valueAt number).isDatum = true at hv
    unfold valueAt at hv ⊢
    cases hnumber : s[number]? with
    | none =>
      rw [hnumber] at hv
      cases hv
    | some found =>
      obtain ⟨more, rfl⟩ := h
      rw [List.getElem?_append_left (List.getElem?_eq_some_iff.mp hnumber).1, hnumber]
  | _ => rfl

theorem look_put (s : Shelf) {v : Value} (hv : v.isDatum = true) :
    (put s v).2.look (put s v).1 = v := by
  rw [put]
  split
  · cases v <;> first | rfl | cases hv
  · show (s ++ [v])[s.length]?.getD _ = v
    rw [List.getElem?_concat_length]
    rfl

/-- Plain data is looked up as before when it was put on the shelf. -/
theorem look_store (s : Shelf) {v : Value} (hv : (s.look v).isDatum = true) :
    (store v s).2.look (store v s).1 = s.look v := by
  cases v with
  | shared number => rfl
  | null => exact look_put s hv
  | bool b => exact look_put s hv
  | intAt n place => cases place with | none => exact look_put s hv | some number => cases hv
  | floatAt x place => cases place with | none => exact look_put s hv | some number => cases hv
  | strAt text place => cases place with | none => exact look_put s hv | some number => cases hv
  | bytesAt b place => cases place with | none => exact look_put s hv | some number => cases hv
  | _ => cases hv

theorem put_eq_column {s : Shelf} {v : Value} {ref : DeclaredRef}
    (h : (put s v).1 = .column ref) : v = .column ref := by
  rw [put] at h
  split at h
  · exact h
  · cases h

/-- No value turns into a column when it is put on the shelf. -/
theorem store_eq_column {v : Value} {s : Shelf} {ref : DeclaredRef}
    (h : (store v s).1 = .column ref) : v = .column ref := by
  revert h
  induction v, s using store.induct_unfolding
    (motive_2 := fun _ _ _ => True) (motive_3 := fun _ _ _ => True) with
  | case9 v s =>
    intro h
    cases h
  | case10 v s => exact put_eq_column
  | case11 s => trivial
  | case12 => trivial
  | case13 s => trivial
  | case14 => trivial
  | _ =>
    intro h
    cases put_eq_column h

end Shelf

namespace World

open Model

/-- Two values that are looked up as the same plain data. -/
def SameDatum (s s' : Shelf) (v v' : Value) : Prop :=
  (s.look v).isDatum = true ∧ s'.look v' = s.look v

section SameDatum

variable {s s' t t' : Shelf} {v v' : Value}

theorem SameDatum.isDatum (h : SameDatum s s' v v') : (s'.look v').isDatum = true := by
  rw [h.2]
  exact h.1

theorem SameDatum.mono (h : SameDatum s s' v v') (hs : s <+: t) (hs' : s' <+: t') :
    SameDatum t t' v v' := by
  have hleft := Shelf.look_of_isPrefix hs h.1
  have hright := Shelf.look_of_isPrefix hs' h.isDatum
  exact ⟨hleft ▸ h.1, by rw [hright, hleft, h.2]⟩

theorem SameDatum.store (h : SameDatum s s' v v') :
    SameDatum (Shelf.store v s).2 (Shelf.store v' s').2 (Shelf.store v s).1
      (Shelf.store v' s').1 := by
  have hleft := Shelf.look_store s h.1
  have hright := Shelf.look_store s' h.isDatum
  exact ⟨hleft ▸ h.1, by rw [hright, hleft, h.2]⟩

theorem SameDatum.of_isDatum (h : v.isDatum = true) : SameDatum s s' v v := by
  have hlook (shelf : Shelf) : shelf.look v = v := by cases v <;> first | rfl | cases h
  exact ⟨by rw [hlook, h], by rw [hlook, hlook]⟩

end SameDatum

/-! ## 2. Bodies -/

/-- The attributes by which a class can name its table. -/
def namingAttributes : List String := [Registry.settingsName, tableAttribute]

/-- Two attributes of bodies that declare alike: columns that are both keys or both none, or related
columns of other classes that are used again.  What stands under a name that can name the table is
the same plain data, or related classes with settings; nothing else is said of values and
associations. -/
inductive BodyAlike (settings columns : Nat → Nat → Prop) (s s' : Shelf) (name : String) :
    AttributeBody → AttributeBody → Prop
  | column {c c' : Column} (hname : name ∉ namingAttributes) (hkey : c.isKey = c'.isKey) :
    BodyAlike settings columns s s' name (.column c) (.column c')
  | again {ref ref' : DeclaredRef} (hname : name ∉ namingAttributes)
      (hcolumns : columns ref.index ref'.index) :
    BodyAlike settings columns s s' name (.plain (.column ref)) (.plain (.column ref'))
  | association {a a' : Association} (hname : name ∉ namingAttributes) :
    BodyAlike settings columns s s' name (.association a) (.association a')
  | plain {v v' : Value} (hname : name ∉ namingAttributes) (hv : ∀ ref, v ≠ .column ref)
      (hv' : ∀ ref, v' ≠ .column ref) :
    BodyAlike settings columns s s' name (.plain v) (.plain v')
  | datum {v v' : Value} (h : SameDatum s s' v v') :
    BodyAlike settings columns s s' name (.plain v) (.plain v')
  | settings {ref ref' : ModelRef} (hname : name = Registry.settingsName)
      (hsettings : settings ref.id ref'.id) :
    BodyAlike settings columns s s' name (.plain (.model ref)) (.plain (.model ref'))

/-- Two attributes of classes that are alike; compare `BodyAlike`. -/
inductive AttributeAlike (settings columns : Nat → Nat → Prop) (s s' : Shelf) (name : String) :
    ClassAttribute → ClassAttribute → Prop
  | free {a a' : ClassAttribute} (hname : name ∉ namingAttributes)
      (hcolumns : Option.Rel columns (Registry.column? a) (Registry.column? a')) :
    AttributeAlike settings columns s s' name a a'
  | datum {v v' : Value} (h : SameDatum s s' v v') :
    AttributeAlike settings columns s s' name (.plain v) (.plain v')
  | settings {ref ref' : ModelRef} (hname : name = Registry.settingsName)
      (hsettings : settings ref.id ref'.id) :
    AttributeAlike settings columns s s' name (.plain (.model ref)) (.plain (.model ref'))

/-- Two settings that say alike how a table is called. -/
def SettingAlike (s s' : Shelf) (name : String) (v v' : Value) : Prop :=
  name = tableSetting → SameDatum s s' v v'

section Mono

variable {settings settings' columns columns' : Nat → Nat → Prop} {s s' t t' : Shelf}
  {name : String}

theorem BodyAlike.mono (hsettings : ∀ a b, settings a b → settings' a b)
    (hcolumns : ∀ a b, columns a b → columns' a b) (hs : s <+: t) (hs' : s' <+: t')
    {body body' : AttributeBody} (h : BodyAlike settings columns s s' name body body') :
    BodyAlike settings' columns' t t' name body body' := by
  cases h with
  | column hname hkey => exact .column hname hkey
  | again hname hpair => exact .again hname (hcolumns _ _ hpair)
  | association hname => exact .association hname
  | plain hname hv hv' => exact .plain hname hv hv'
  | datum h => exact .datum (h.mono hs hs')
  | settings hname hpair => exact .settings hname (hsettings _ _ hpair)

theorem AttributeAlike.mono (hsettings : ∀ a b, settings a b → settings' a b)
    (hcolumns : ∀ a b, columns a b → columns' a b) (hs : s <+: t) (hs' : s' <+: t')
    {a a' : ClassAttribute} (h : AttributeAlike settings columns s s' name a a') :
    AttributeAlike settings' columns' t t' name a a' := by
  cases h with
  | free hname hpair => exact .free hname (Dictionary.rel_imp hcolumns hpair)
  | datum h => exact .datum (h.mono hs hs')
  | settings hname hpair => exact .settings hname (hsettings _ _ hpair)

end Mono

/-- Attributes that are alike are related columns, or no columns at all. -/
theorem AttributeAlike.column? {settings columns : Nat → Nat → Prop} {s s' : Shelf} {name : String}
    {a a' : ClassAttribute} (h : AttributeAlike settings columns s s' name a a') :
    Option.Rel columns (Registry.column? a) (Registry.column? a') := by
  cases h with
  | free _ hcolumns => exact hcolumns
  | datum _ => exact .none
  | settings _ _ => exact .none

/-! ## 3. Declaring -/

section Declaring

variable {S K : List (Nat × Nat)} {s s' : Shelf} {r r' : Registry}

theorem column?_addAttribute_plain (r : Registry) (name : String) {v : Value}
    (hv : ∀ ref, v ≠ .column ref) :
    Registry.column? (r.addAttribute name (.plain v)).2 = none := by
  cases v with
  | column ref => exact absurd rfl (hv ref)
  | _ => rfl

theorem addAttribute_datum (r : Registry) (name : String) {v : Value}
    (hv : (s.look v).isDatum = true) : r.addAttribute name (.plain v) = (r, .plain v) := by
  cases v <;> first | rfl | cases hv

/-- An attribute that is declared on both sides makes at most one new pair of columns, and then it
is the new column on either side. -/
theorem addAttribute_alike (hcolumns : Registry.ColumnsAlike K r r') {name : String}
    {body body' : AttributeBody} (h : BodyAlike (Paired S) (Paired K) s s' name body body') :
    ∃ K', K ⊆ K' ∧
      Registry.ColumnsAlike K' (r.addAttribute name body).1 (r'.addAttribute name body').1 ∧
      AttributeAlike (Paired S) (Paired K') s s' name (r.addAttribute name body).2
        (r'.addAttribute name body').2 ∧
      ∀ a b, Paired K' a b → Paired K a b ∨
        (r.addAttribute name body).2 = .column a ∧ (r'.addAttribute name body').2 = .column b := by
  have hkept := hcolumns.of_keepsKeys (Registry.addAttribute_keepsKeys r name body)
    (Registry.addAttribute_keepsKeys r' name body')
  cases h with
  | column hname hkey =>
    refine ⟨_, List.subset_cons_self _ K, hcolumns.addColumn hkey,
      .free hname (.some (paired_cons.mpr (.inl ⟨rfl, rfl⟩))), fun a b hab => ?_⟩
    rcases paired_cons.mp hab with ⟨rfl, rfl⟩ | hab
    · exact .inr ⟨rfl, rfl⟩
    · exact .inl hab
  | again hname hpair =>
    exact ⟨K, List.Subset.refl K, hkept, .free hname (.some hpair), fun a b hab => .inl hab⟩
  | association hname =>
    exact ⟨K, List.Subset.refl K, hkept, .free hname .none, fun a b hab => .inl hab⟩
  | plain hname hv hv' =>
    refine ⟨K, List.Subset.refl K, hkept, .free hname ?_, fun a b hab => .inl hab⟩
    rw [column?_addAttribute_plain r name hv, column?_addAttribute_plain r' name hv']
    exact .none
  | datum h =>
    refine ⟨K, List.Subset.refl K, hkept, ?_, fun a b hab => .inl hab⟩
    rw [addAttribute_datum r name h.1, addAttribute_datum r' name h.isDatum]
    exact .datum h
  | settings hname hpair =>
    exact ⟨K, List.Subset.refl K, hkept, .settings hname hpair, fun a b hab => .inl hab⟩

theorem names_addAttributes (r : Registry) (body : List (String × AttributeBody)) :
    (r.addAttributes body).2.names = Dictionary.names body := by
  induction body generalizing r with
  | nil => rfl
  | cons entry rest ih => exact congrArg (entry.1 :: ·) (ih (r.addAttribute entry.1 entry.2).1)

/-- The attributes that are declared on both sides make new pairs of columns, and the class holds
each of them under one name. -/
theorem addAttributes_alike (hcolumns : Registry.ColumnsAlike K r r')
    {body body' : List (String × AttributeBody)}
    (h : Dictionary.Alike (BodyAlike (Paired S) (Paired K) s s') body body')
    (hnames : (Dictionary.names body).Nodup) :
    ∃ K', K ⊆ K' ∧
      Registry.ColumnsAlike K' (r.addAttributes body).1 (r'.addAttributes body').1 ∧
      Dictionary.Alike (AttributeAlike (Paired S) (Paired K') s s') (r.addAttributes body).2
        (r'.addAttributes body').2 ∧
      ∀ a b, Paired K' a b → Paired K a b ∨ ∃ name,
        (r.addAttributes body).2.get? name = some (.column a) ∧
        (r'.addAttributes body').2.get? name = some (.column b) := by
  induction body generalizing body' r r' K with
  | nil =>
    cases h
    exact ⟨K, List.Subset.refl K, hcolumns, .nil, fun a b hab => .inl hab⟩
  | cons entry rest ih =>
    rcases h with _ | @⟨_, entry', _, rest', hentry, hrest⟩
    obtain ⟨name, first⟩ := entry
    obtain ⟨name', first'⟩ := entry'
    obtain ⟨rfl, hfirst⟩ := hentry
    obtain ⟨K₁, hsub, hextended, hattribute, hnew⟩ := addAttribute_alike hcolumns hfirst
    obtain ⟨hnot, hrestNames⟩ := List.nodup_cons.mp hnames
    have hrest₁ : Dictionary.Alike (BodyAlike (Paired S) (Paired K₁) s s') rest rest' :=
      hrest.imp fun _ _ h => ⟨h.1, h.2.mono (fun _ _ => id) (fun _ _ hab => hsub hab)
        List.prefix_rfl List.prefix_rfl⟩
    obtain ⟨K₂, hsub₂, hcolumns₂, hattributes, hnew₂⟩ := ih hextended hrest₁ hrestNames
    have hfirst₂ := hattribute.mono (fun _ _ => id) (fun a b hab => hsub₂ hab) List.prefix_rfl
      List.prefix_rfl
    refine ⟨K₂, fun p hp => hsub₂ (hsub hp), hcolumns₂, .cons hfirst₂ hattributes,
      fun a b hab => ?_⟩
    rw [Registry.addAttributes, Registry.addAttributes]
    rcases hnew₂ a b hab with hab | ⟨other, ha, hb⟩
    · rcases hnew a b hab with hab | ⟨ha, hb⟩
      · exact .inl hab
      · exact .inr ⟨name, by simp [Dictionary.get?, ha], by simp [Dictionary.get?, hb]⟩
    · -- later names are other names
      have hother : name ≠ other := by
        rintro rfl
        rw [Dictionary.get?_eq_none ((names_addAttributes _ rest).symm ▸ hnot)] at ha
        cases ha
      exact .inr ⟨other, by simpa [Dictionary.get?, hother] using ha,
        by simpa [Dictionary.get?, hother] using hb⟩

/-- What two classes get for their keys: columns that are alike.  Each new pair is the implicit
column, which the classes hold under its name. -/
structure KeyedAlike (S K K' : List (Nat × Nat)) (s s' : Shelf) (keyed keyed' : Registry.Keyed) :
    Prop where
  isSubset : K ⊆ K'
  registry : Registry.ColumnsAlike K' keyed.registry keyed'.registry
  attributes : Dictionary.Alike (AttributeAlike (Paired S) (Paired K') s s') keyed.attributes
    keyed'.attributes
  columns : Dictionary.Alike (fun _ => Paired K') keyed.columns keyed'.columns
  key_eq : keyed.key = keyed'.key
  held : ∀ a b, Paired K' a b → Paired K a b ∨
    keyed.attributes.get? Registry.implicitKey = some (.column a) ∧
      keyed'.attributes.get? Registry.implicitKey = some (.column b)

/-- The key is found on both sides under the same name, or on neither side for the same reason. -/
theorem resolveKey_alike (hcolumns : Registry.ColumnsAlike K r r') (model : String)
    {attributes attributes' : Dictionary ClassAttribute}
    (hattributes : Dictionary.Alike (AttributeAlike (Paired S) (Paired K) s s') attributes
      attributes')
    {columns columns' : Dictionary Nat}
    (hpicked : Dictionary.Alike (fun _ => Paired K) columns columns') :
    OutcomesAlike (fun keyed keyed' => ∃ K', KeyedAlike S K K' s s' keyed keyed')
      (r.resolveKey model attributes columns) (r'.resolveKey model attributes' columns') := by
  have hkeys : (columns.filter fun entry => (r.columnAt entry.2).isKey).map (·.1) =
      (columns'.filter fun entry => (r'.columnAt entry.2).isKey).map (·.1) := by
    refine Dictionary.Alike.names_eq (P := fun _ => Paired K) (List.rel_filter ?_ hpicked)
    intro entry entry' hentry
    exact Bool.eq_iff_iff.mp (hcolumns.isKey_eq _ _ hentry.2)
  have hid := hpicked.get? Registry.implicitKey
  rw [Registry.resolveKey, Registry.resolveKey, ← hkeys]
  generalize (columns.filter fun entry => (r.columnAt entry.2).isKey).map (·.1) = keys
  rcases keys with _ | ⟨key, _ | ⟨other, rest⟩⟩
  · dsimp only
    generalize columns.get? Registry.implicitKey = found at hid
    generalize columns'.get? Registry.implicitKey = found' at hid
    cases hid with
    | some hpair =>
      exact .ok ⟨K, List.Subset.refl K, hcolumns.markKey hpair, hattributes, hpicked, rfl,
        fun a b hab => .inl hab⟩
    | none =>
      have hpair : Paired ((r.columns.length, r'.columns.length) :: K) r.columns.length
          r'.columns.length := paired_cons.mpr (.inl ⟨rfl, rfl⟩)
      have hsub (a b : Nat) (hab : Paired K a b) :
          Paired ((r.columns.length, r'.columns.length) :: K) a b := paired_cons.mpr (.inr hab)
      have hkept := hattributes.imp fun name _ _ h =>
        h.mono (fun _ _ => id) hsub List.prefix_rfl List.prefix_rfl
      refine .ok ⟨_, List.subset_cons_self _ K, hcolumns.addColumn rfl,
        hkept.insert (.free (by decide) (.some hpair)),
        .cons hpair (hpicked.imp fun _ => hsub), rfl, fun a b hab => ?_⟩
      rcases paired_cons.mp hab with ⟨rfl, rfl⟩ | hab
      · exact .inr ⟨Dictionary.get?_insert_self _ _ _, Dictionary.get?_insert_self _ _ _⟩
      · exact .inl hab
  · exact .ok ⟨K, List.Subset.refl K, hcolumns, hattributes, hpicked, rfl,
      fun a b hab => .inl hab⟩
  · exact .error _

end Declaring

/-! ## 4. Worlds -/

/-- Two mappers with the same table and the same key, and with columns that are alike. -/
structure MapperAlike (K : List (Nat × Nat)) (s s' : Shelf) (m m' : Mapper) : Prop where
  tableName : SameDatum s s' m.tableName m'.tableName
  columns : Dictionary.Alike (fun _ => Paired K) m.columns m'.columns
  key_eq : m.key = m'.key

/-- Two classes with ancestors, attributes and mappers that are alike. -/
structure ClassAlike (C S K : List (Nat × Nat)) (s s' : Shelf) (c c' : ModelClass) : Prop where
  ancestry : List.Forall₂ (Paired C) c.ancestry c'.ancestry
  attributes : Dictionary.Alike (AttributeAlike (Paired S) (Paired K) s s') c.attributes
    c'.attributes
  mapper : Option.Rel (MapperAlike K s s') c.mapper c'.mapper

/-- Two attributes that say alike how a table is called. -/
def SettingsAgree (s s' : Shelf) (name : String) (a a' : ClassAttribute) : Prop :=
  name = tableSetting → ∃ v v', a = .plain v ∧ a' = .plain v' ∧ SameDatum s s' v v'

/-- Two classes with settings that are alike; each stands alone. -/
structure SettingsAlike (s s' : Shelf) (id id' : Nat) (c c' : ModelClass) : Prop where
  ancestry : c.ancestry = [id]
  ancestry' : c'.ancestry = [id']
  attributes : Dictionary.Alike (SettingsAgree s s') c.attributes c'.attributes

/-- Two worlds with classes in common: pairs `C` of classes, pairs `S` of classes with settings, and
pairs `K` of the columns that these classes have. -/
structure Alike (C S K : List (Nat × Nat)) (w w' : World) : Prop where
  columns : Registry.ColumnsAlike K w.registry w'.registry
  oneToOne : OneToOne C
  below : Below C w.registry.classes.length w'.registry.classes.length
  settingsBelow : Below S w.registry.classes.length w'.registry.classes.length
  root : Paired C 0 0
  classes : ∀ a b, Paired C a b →
    ClassAlike C S K w.shelf w'.shelf (w.registry.classAt a) (w'.registry.classAt b)
  settings : ∀ a b, Paired S a b →
    SettingsAlike w.shelf w'.shelf a b (w.registry.classAt a) (w'.registry.classAt b)

section Mono

variable {C C' S S' K K' : List (Nat × Nat)} {s s' t t' : Shelf}

theorem MapperAlike.mono (hK : K ⊆ K') (hs : s <+: t) (hs' : s' <+: t') {m m' : Mapper}
    (h : MapperAlike K s s' m m') : MapperAlike K' t t' m m' where
  tableName := h.tableName.mono hs hs'
  columns := h.columns.imp fun _ _ _ hab => hK hab
  key_eq := h.key_eq

theorem ClassAlike.mono (hC : C ⊆ C') (hS : S ⊆ S') (hK : K ⊆ K') (hs : s <+: t) (hs' : s' <+: t')
    {c c' : ModelClass} (h : ClassAlike C S K s s' c c') : ClassAlike C' S' K' t t' c c' where
  ancestry := h.ancestry.imp fun _ _ hab => hC hab
  attributes := h.attributes.imp fun _ _ _ h =>
    h.mono (fun _ _ hab => hS hab) (fun _ _ hab => hK hab) hs hs'
  mapper := Dictionary.rel_imp (fun _ _ h => h.mono hK hs hs') h.mapper

theorem SettingsAlike.mono (hs : s <+: t) (hs' : s' <+: t') {id id' : Nat} {c c' : ModelClass}
    (h : SettingsAlike s s' id id' c c') : SettingsAlike t t' id id' c c' where
  ancestry := h.ancestry
  ancestry' := h.ancestry'
  attributes := h.attributes.imp fun _ _ _ h hname =>
    let ⟨v, v', ha, ha', hsame⟩ := h hname
    ⟨v, v', ha, ha', hsame.mono hs hs'⟩

end Mono

/-- A world with more classes, columns and values at the end.  The columns that are watched are keys
if they were keys. -/
structure Enlarged (watched : Nat → Prop) (w w' : World) : Prop where
  classes : w.registry.classes <+: w'.registry.classes
  columns_le : w.registry.columns.length ≤ w'.registry.columns.length
  isKey_eq : ∀ index, index < w.registry.columns.length → watched index →
    (w'.registry.columnAt index).isKey = (w.registry.columnAt index).isKey
  shelf : w.shelf <+: w'.shelf

section Enlarged

variable {watched : Nat → Prop} {C S K : List (Nat × Nat)} {w w' v v' : World}

theorem Enlarged.of_still (h : Still w v) : Enlarged watched w v where
  classes := h.registry_eq ▸ List.prefix_rfl
  columns_le := h.registry_eq ▸ Nat.le_refl _
  isKey_eq index _ _ := by rw [h.registry_eq]
  shelf := h.shelf_prefix

theorem Enlarged.of_registry {r : Registry} (hclasses : w.registry.classes <+: r.classes)
    (hkeys : w.registry.KeepsKeys r) : Enlarged watched w { w with registry := r } where
  classes := hclasses
  columns_le := hkeys.columns_le
  isKey_eq index hindex _ := hkeys.isKey_eq index hindex
  shelf := List.prefix_rfl

theorem Enlarged.refl (w : World) : Enlarged watched w w where
  classes := List.prefix_rfl
  columns_le := Nat.le_refl _
  isKey_eq _ _ _ := rfl
  shelf := List.prefix_rfl

theorem Enlarged.trans {u : World} (h : Enlarged watched w v) (h' : Enlarged watched v u) :
    Enlarged watched w u where
  classes := h.classes.trans h'.classes
  columns_le := Nat.le_trans h.columns_le h'.columns_le
  isKey_eq index hindex hwatched :=
    (h'.isKey_eq index (Nat.lt_of_lt_of_le hindex h.columns_le) hwatched).trans
      (h.isKey_eq index hindex hwatched)
  shelf := h.shelf.trans h'.shelf

theorem Enlarged.classAt_eq (h : Enlarged watched w v) {id : Nat}
    (hid : id < w.registry.classes.length) : v.registry.classAt id = w.registry.classAt id := by
  obtain ⟨more, hmore⟩ := h.classes
  rw [Registry.classAt, Registry.classAt, ← hmore, List.getElem?_append_left hid]

/-- What is added on either side without marking a column in common leaves worlds alike. -/
theorem Alike.enlarge (h : Alike C S K w w')
    (hv : Enlarged (fun i => ∃ j, Paired K i j) w v)
    (hv' : Enlarged (fun j => ∃ i, Paired K i j) w' v') : Alike C S K v v' where
  columns := {
    oneToOne := h.columns.oneToOne
    below := h.columns.below.mono hv.columns_le hv'.columns_le
    isKey_eq := fun i j hij => by
      obtain ⟨hi, hj⟩ := h.columns.below i j hij
      rw [hv.isKey_eq i hi ⟨j, hij⟩, hv'.isKey_eq j hj ⟨i, hij⟩, h.columns.isKey_eq i j hij] }
  oneToOne := h.oneToOne
  below := h.below.mono hv.classes.length_le hv'.classes.length_le
  settingsBelow := h.settingsBelow.mono hv.classes.length_le hv'.classes.length_le
  root := h.root
  classes a b hab := by
    obtain ⟨ha, hb⟩ := h.below a b hab
    rw [hv.classAt_eq ha, hv'.classAt_eq hb]
    exact (h.classes a b hab).mono (List.Subset.refl C) (List.Subset.refl S) (List.Subset.refl K)
      hv.shelf hv'.shelf
  settings a b hab := by
    obtain ⟨ha, hb⟩ := h.settingsBelow a b hab
    rw [hv.classAt_eq ha, hv'.classAt_eq hb]
    exact (h.settings a b hab).mono hv.shelf hv'.shelf

/-- With more pairs of columns worlds stay alike, where the classes are the same. -/
theorem Alike.withColumns {r r' : Registry} {K' : List (Nat × Nat)} (h : Alike C S K w w')
    (hclasses : r.classes = w.registry.classes) (hclasses' : r'.classes = w'.registry.classes)
    (hK : K ⊆ K') (hcolumns : Registry.ColumnsAlike K' r r') :
    Alike C S K' { w with registry := r } { w' with registry := r' } where
  columns := hcolumns
  oneToOne := h.oneToOne
  below := by
    show Below C r.classes.length r'.classes.length
    rw [hclasses, hclasses']
    exact h.below
  settingsBelow := by
    show Below S r.classes.length r'.classes.length
    rw [hclasses, hclasses']
    exact h.settingsBelow
  root := h.root
  classes a b hab := by
    show ClassAlike C S K' w.shelf w'.shelf (r.classAt a) (r'.classAt b)
    rw [Registry.classAt, Registry.classAt, hclasses, hclasses']
    exact (h.classes a b hab).mono (List.Subset.refl C) (List.Subset.refl S) hK List.prefix_rfl
      List.prefix_rfl
  settings a b hab := by
    show SettingsAlike w.shelf w'.shelf a b (r.classAt a) (r'.classAt b)
    rw [Registry.classAt, Registry.classAt, hclasses, hclasses']
    exact h.settings a b hab

end Enlarged

end World
end RowMapper
