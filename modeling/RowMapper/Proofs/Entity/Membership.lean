import Mathlib.Logic.Relation
import RowMapper.Proofs.Entity.Leaving
import RowMapper.Proofs.Entity.Linking
import RowMapper.Proofs.Entity.Partial
import RowMapper.Proofs.Entity.Related

/-!
# Lists of related entities

The entities that are related to an owner are held as a list.  `populate` puts a new list in its
place, and `attach` appends to the list that is there, whatever it holds.  So the list stays a set
as long as no entity is attached that it has already, as the same entity or as another one of the
same row (`related_entities_stay_a_set`).
-/
namespace RowMapper

/-! ## 1. Lists on the shelf -/

namespace Shelf

variable {s : Shelf} {number : Nat} {items : List Value} {place : Place}

theorem append_list (h : s.valueAt number = .listAt items place) (v : Value) :
    s.append number v = s.set number (.listAt (items ++ [v]) place) := by
  rw [append, h]

/-- A list has what was appended to it. -/
theorem valueAt_append_self (h : s.valueAt number = .listAt items place) (v : Value) :
    (s.append number v).valueAt number = .listAt (items ++ [v]) place := by
  have hlies : s[number]? = some (s.valueAt number) := lies_of_ne (by rw [h]; exact nofun)
  rw [append_list h, valueAt, List.getElem?_set_self (List.getElem?_eq_some_iff.mp hlies).1]
  rfl

/-- A value of a database is looked up as the same after something was appended to a list. -/
theorem look_append {held : Value} (h : (s.look held).isDatum = true)
    (hlist : s.valueAt number = .listAt items place) (v : Value) :
    (s.append number v).look held = s.look held := by
  by_cases hshared : ∃ other, held = .shared other
  · obtain ⟨other, rfl⟩ := hshared
    have hne : number ≠ other := by
      rintro rfl
      replace h : (s.valueAt number).isDatum = true := h
      rw [hlist] at h
      cases h
    show (s.append number v).valueAt other = s.valueAt other
    rw [append_list hlist, valueAt, List.getElem?_set_ne hne, valueAt]
  · cases held <;> first | rfl | exact absurd ⟨_, rfl⟩ hshared

end Shelf

namespace World

open Model (Association AssociationKind Mapper)

variable {owner other ref : EntityRef} {name : String} {w t u w' : World} {shape : Shape}
  {items refs : List EntityRef} {k : Value}

/-! ## 2. Lists and keys of entities -/

/-- The entity that a value is. -/
def entity? : Value → Option EntityRef
  | .entity ref => some ref
  | _ => none

/-- The entities that are held as a list under the name of a relation; there are none if nothing is
held. -/
def listed (w : World) (owner : EntityRef) (name : String) : Option (List EntityRef) :=
  match (Entries.get? (w.entityAt owner).attributes (.str name)).getD .null with
  | .null => some []
  | .shared number =>
    match w.shelf.valueAt number with
    | .listAt items _ => items.mapM entity?
    | _ => none
  | _ => none

theorem forall₂_of_mapM {α β : Type} {f : α → Option β} {items : List α} {found : List β}
    (h : items.mapM f = some found) : List.Forall₂ (fun a b => f a = some b) items found := by
  induction items generalizing found with
  | nil =>
    cases h
    exact .nil
  | cons a rest ih =>
    rw [List.mapM_cons] at h
    obtain ⟨b, hfirst, h⟩ := Option.bind_eq_some_iff.mp h
    obtain ⟨others, hrest, h⟩ := Option.bind_eq_some_iff.mp h
    cases h
    exact .cons hfirst (ih hrest)

theorem mapM_entity? {values : List Value} (h : values.mapM entity? = some items) :
    values = items.map .entity := by
  have hentity {v : Value} {ref : EntityRef} (h : entity? v = some ref) : v = .entity ref := by
    cases v <;> cases h
    rfl
  exact List.forall₂_eq_eq_eq ▸ List.forall₂_map_right_iff.mpr
    ((forall₂_of_mapM h).imp fun _ _ => hentity)

theorem entities_mapM_entity? (items : List EntityRef) :
    (items.map Value.entity).mapM entity? = some items := by
  induction items with
  | nil => rfl
  | cons ref rest ih =>
    rw [List.map_cons, List.mapM_cons, ih]
    rfl

/-- An owner holds no list yet, or one that lies on the shelf. -/
theorem listed_eq_some : w.listed owner name = some items ↔
    (Entries.get? (w.entityAt owner).attributes (.str name)).getD .null = .null ∧ items = [] ∨
    ∃ number place,
      (Entries.get? (w.entityAt owner).attributes (.str name)).getD .null = .shared number ∧
      w.shelf.valueAt number = .listAt (items.map .entity) place := by
  constructor
  · intro h
    unfold listed at h
    split at h
    · next hnull =>
      cases h
      exact .inl ⟨hnull, rfl⟩
    · next number hheld =>
      split at h
      · next values place hlist =>
        exact .inr ⟨number, place, hheld, by rw [hlist, mapM_entity? h]⟩
      · cases h
    · cases h
  · rintro (⟨hnull, rfl⟩ | ⟨number, place, hheld, hlist⟩)
    · rw [listed, hnull]
    · rw [listed, hheld]
      dsimp only
      rw [hlist]
      exact entities_mapM_entity? items

/-- What is set on an entity as its key, looked up. -/
def setKey (w : World) (ref : EntityRef) : Option Value :=
  match w.registry.mapperOf (w.entityAt ref).model.id with
  | .ok m => (Entries.get? (w.entityAt ref).attributes (.str m.key)).map w.look
  | .error _ => none

/-- An entity has a key, which is a value of a database. -/
structure KeyedBy (ref : EntityRef) (k : Value) (w : World) : Prop where
  inside : ref.id < w.entities.length
  key_eq : w.setKey ref = some k
  datum : k.isDatum = true
  not_null : k.isNull = false

theorem setKey_eq_some : w.setKey ref = some k ↔ ∃ m held,
    w.registry.mapperOf (w.entityAt ref).model.id = .ok m ∧
    Entries.get? (w.entityAt ref).attributes (.str m.key) = some held ∧ w.look held = k := by
  rw [setKey]
  cases w.registry.mapperOf (w.entityAt ref).model.id with
  | error fault => simp
  | ok m => simp

/-- No two of some keys are the same. -/
def Differ (keys : List Value) : Prop := keys.Pairwise fun k known => k.sameKey known = false

/-- Under the name of a relation an owner holds entities with keys, no two of which are the same. -/
structure HoldsSet (owner : EntityRef) (name : String) (w : World) : Prop where
  inside : owner.id < w.entities.length
  distinct : ∃ items keys, w.listed owner name = some items ∧
    List.Forall₂ (KeyedBy · · w) items keys ∧ Differ keys

/-! ## 3. What is left alone -/

theorem Leaving.keyedBy {spared : EntityRef → String → Prop} (h : Leaving spared w w')
    (hkey : KeyedBy ref k w) (hspared : ∀ name, spared ref name) : KeyedBy ref k w' := by
  obtain ⟨m, held, hm, hget, hlook⟩ := setKey_eq_some.mp hkey.key_eq
  obtain ⟨added, flag, hlater⟩ := h.steady.mapperOf_eq hm
  rw [← h.model_eq ref hkey.inside] at hlater
  obtain ⟨hin, hsame⟩ := h.retains ref m.key (hspared m.key) hkey.inside
  refine ⟨hin, setKey_eq_some.mpr ⟨_, held, hlater, hsame.trans hget, ?_⟩, hkey.datum,
    hkey.not_null⟩
  rw [look, Shelf.look_later (by rw [← hkey.datum, ← hlook]; rfl) h.shelf_prefix]
  exact hlook

theorem Leaving.listed {spared : EntityRef → String → Prop} (h : Leaving spared w w')
    (hin : owner.id < w.entities.length) (hlisted : w.listed owner name = some items)
    (hspared : spared owner name) : w'.listed owner name = some items := by
  have hsame := (h.retains owner name hspared hin).2
  rw [listed_eq_some, hsame]
  refine (listed_eq_some.mp hlisted).imp_right ?_
  rintro ⟨number, place, hheld, hlist⟩
  refine ⟨number, place, hheld, ?_⟩
  rw [Shelf.valueAt_later (by rw [hlist]; exact nofun) h.shelf_prefix, hlist]

/-- An owner whose list and whose listed entities are left alone holds the same set. -/
theorem Leaving.holdsSet {spared : EntityRef → String → Prop} (h : Leaving spared w w')
    (hset : HoldsSet owner name w) (howner : spared owner name)
    (hitems : ∀ items, w.listed owner name = some items → ∀ ref ∈ items, ∀ name, spared ref name) :
    HoldsSet owner name w' := by
  obtain ⟨items, keys, hlisted, hkeyed, hdiffer⟩ := hset.distinct
  refine ⟨Nat.lt_of_lt_of_le hset.inside h.entities_le, items, keys,
    h.listed hset.inside hlisted howner, ?_, hdiffer⟩
  exact ((List.forall₂_and_left _ _).mpr ⟨hitems items hlisted, hkeyed⟩).imp
    fun ref k hkey => h.keyedBy hkey.2 hkey.1

/-! ## 4. Populating -/

/-- Rows each have a key of their own. -/
def OwnKeys (key : String) (rows : List Row) : Prop :=
  ∃ keys, List.Forall₂ (fun row k => (Dictionary.ofList row).get? key = some k ∧
    k.isDatum = true ∧ k.isNull = false) rows keys ∧ Differ keys

/-- If populating a relation is answered with rows, they each have a key of their own, and keys are
not left out. -/
def AnswersKeys (owner : EntityRef) (name : String) (shape : Shape) (w : World) : Prop :=
  ∀ a t model m scan rows, (associationOfEntity owner (.str name)).runOn w = (.ok a, t) →
    resolvedModel a.resolved = .ok model → t.mapper model = .ok m →
    ((populate owner (.str name) shape).runOn w).2.trace = w.trace ++ [scan] →
    scan.result = .ok (.rows rows) →
    OwnKeys m.key rows ∧ ∀ excluded, LeftOut shape excluded → m.key ∉ excluded

/-- The entity of a row has the key of the row. -/
theorem Brought.keyedBy {model : Nat} {mapper : Mapper} {excluded : List String} {row : Row}
    (h : Brought model mapper (kept excluded row) ref w t) (hw : w.Sound)
    (hexcluded : mapper.key ∉ excluded)
    (hrow : (Dictionary.ofList row).get? mapper.key = some k) (hdatum : k.isDatum = true)
    (hnull : k.isNull = false) : KeyedBy ref k t := by
  obtain ⟨known, hknown, hmapper⟩ := bind_eq_ok.mp h.mapper_eq
  cases hmapper
  have hcarried := h.carries known.key
  rw [get?_kept, if_neg hexcluded, hrow] at hcarried
  have hid : (t.entityAt ref).model.id = model := by
    rw [h.model_eq]
    exact hw.numbered model (lt_of_mapperOf hknown)
  have hm : t.registry.mapperOf (t.entityAt ref).model.id = .ok known := by
    rw [hid, h.registry_eq, hknown]
  cases hheld : Entries.get? (t.entityAt ref).attributes (.str known.key) with
  | none =>
    rw [hheld] at hcarried
    cases hcarried
  | some held =>
    rw [hheld] at hcarried
    cases hcarried with
    | some hkept => exact ⟨h.inside, setKey_eq_some.mpr
        ⟨known, held, hm, hheld, Shelf.look_kept hkept hdatum⟩, hdatum, hnull⟩

/-- What is done to load a relation to many. -/
theorem load_hasMany_eq_ok {session : String} {a : Association} {value : Value}
    (hmany : a.kind = .hasMany) (hload : (load session owner a shape).runOn w = (.ok value, t)) :
    ∃ filter model o found, resolvedModel a.resolved = .ok model ∧
      relatedOptions filter shape = .ok o ∧ (findAll session model o).runOn w = (.ok found, t) ∧
      value = .list (found.map .entity) := by
  rw [load, hmany] at hload
  obtain ⟨filter, s, hfilter, hload⟩ := Action.runOn_bind_eq_ok.mp hload
  obtain ⟨model, _, htarget, hload⟩ := Action.runOn_bind_eq_ok.mp hload
  obtain ⟨hmodel, rfl⟩ := ofExcept_eq_ok.mp htarget
  obtain ⟨o, _, hoptions, hload⟩ := Action.runOn_bind_eq_ok.mp hload
  obtain ⟨ho, rfl⟩ := ofExcept_eq_ok.mp hoptions
  obtain ⟨found, _, hfind, hload⟩ := Action.runOn_bind_eq_ok.mp hload
  cases hload
  -- finding the filter only reads
  obtain ⟨key, v, hkey, hfilter⟩ := Action.runOn_bind_eq_ok.mp hfilter
  obtain ⟨-, rfl⟩ := reading_eq_ok.mp hfilter
  obtain ⟨_, _, hread, hkey⟩ := Action.runOn_bind_eq_ok.mp hkey
  obtain ⟨-, rfl⟩ := reading_eq_ok.mp hread
  obtain ⟨-, hkey⟩ := Action.runOn_guarded_eq_ok.mp hkey
  cases hkey
  exact ⟨filter, model, o, found, hmodel, ho, hfind, rfl⟩

/-- An owner that is given entities to hold lists them. -/
theorem holdAttribute_listed (hin : owner.id < w.entities.length) (refs : List EntityRef) :
    ((holdAttribute owner (.str name) (.list (refs.map .entity))).runOn w).2.listed owner name =
      some refs := by
  have hentity : ((holdAttribute owner (.str name) (.list (refs.map .entity))).runOn w).2.entityAt
      owner = { w.entityAt owner with
        attributes := Entries.insert (w.entityAt owner).attributes (.str name)
          (Shelf.store (.list (refs.map .entity)) w.shelf).1 } :=
    entityAt_set hin _ _
  have hshelf : ((holdAttribute owner (.str name) (.list (refs.map .entity))).runOn w).2.shelf =
      (Shelf.store (.list (refs.map .entity)) w.shelf).2 := rfl
  rw [listed_eq_some, hentity, hshelf, store_entities]
  refine .inr ⟨w.shelf.length, none, by rw [Entries.get?_insert, if_pos rfl]; rfl, ?_⟩
  simp [Shelf.valueAt]

/-- What two lists have to do with each other by a third one. -/
theorem forall₂_through {α β γ : Type} {R : γ → α → Prop} {S : γ → β → Prop} {Q : α → β → Prop}
    (hQ : ∀ c a b, R c a → S c b → Q a b) {between : List γ} {left : List α} {right : List β}
    (hleft : List.Forall₂ R between left) (hright : List.Forall₂ S between right) :
    List.Forall₂ Q left right := by
  induction hleft generalizing right with
  | nil =>
    cases hright
    exact .nil
  | cons hfirst _ ih =>
    cases hright with
    | cons hfirst' hrest' => exact .cons (hQ _ _ _ hfirst hfirst') (ih hrest')

/-- After a relation to many was populated the owner lists the entities of the rows that were
answered. -/
theorem populate_holdsSet (hw : w.Sound)
    (hmany : ∀ a t, (associationOfEntity owner (.str name)).runOn w = (.ok a, t) →
      a.kind = .hasMany)
    (hanswers : AnswersKeys owner name shape w)
    (hrun : (populate owner (.str name) shape).runOn w = (.ok (), w')) :
    HoldsSet owner name w' := by
  obtain ⟨session, a, value, t, u, hsession, hassociation, hload, hhold⟩ := populate_eq_ok hrun
  obtain ⟨filter, model, o, found, hmodel, ho, hfind, rfl⟩ :=
    load_hasMany_eq_ok (hmany a t hassociation) hload
  have hin : owner.id < w.entities.length := lt_of_bound (by rw [hsession]; rfl)
  have hquiet : Leads [] w t := (associationOfEntity_sends owner (.str name)).of_run hassociation
  have hentities : t.entities = w.entities :=
    ((associationOfEntity_registers owner (.str name)).of_run hassociation).entities_eq
  obtain ⟨mapper, rows, hmapper, ⟨read, hread, -, hrows⟩, hbrought⟩ := findAll_brought hfind
  have hgrows := (findAll_grows session model o).of_run hfind
  have hin_u : owner.id < u.entities.length :=
    Nat.lt_of_lt_of_le (hentities ▸ hin) hgrows.entities_prefix.length_le
  have hlisted : w'.listed owner name = some found := by
    rw [← holdAttribute_listed hin_u found, hhold]
  have htrace : ((populate owner (.str name) shape).runOn w).2.trace = w.trace ++ [read] := by
    have hheld : Leads [] u w' := (holdAttribute_sends owner (.str name) _).of_run hhold
    rw [hrun, hheld.trace_eq, hread, hquiet.trace_eq]
  obtain ⟨⟨keys, hkeys, hdiffer⟩, hkept⟩ :=
    hanswers a t model mapper read rows hassociation hmodel hmapper htrace hrows
  have hkeyed : List.Forall₂ (KeyedBy · · u) found keys :=
    forall₂_through (fun row ref k hmade hkey => hmade.keyedBy (hquiet.sound hw)
      (hkept o.exclude (.inr ⟨filter, o, ho, rfl⟩)) hkey.1 hkey.2.1 hkey.2.2) hbrought hkeys
  -- the entities are new, so that the owner is none of them
  have hnew : ∀ ref ∈ found, ref.id ≠ owner.id := fun ref href => Nat.ne_of_gt
    (Nat.lt_of_lt_of_le (hentities ▸ hin) (findAll_loaded hfind href).new)
  have hleaves : Leaving (fun ref _ => ref.id ≠ owner.id) u w' :=
    (holdAttribute_leaving (fun _ _ hne heq => absurd heq hne) _).of_run hhold
  refine ⟨Nat.lt_of_lt_of_le hin_u hleaves.entities_le, found, keys, hlisted, ?_, hdiffer⟩
  exact ((List.forall₂_and_left _ _).mpr ⟨hnew, hkeyed⟩).imp
    fun ref k hkey => hleaves.keyedBy hkey.2 fun _ => hkey.1

/-! ## 5. Attaching -/

/-- An entity may be attached: the owner does not list it, nor another one with the key that it has
afterwards.  If it is the owner itself, the relation is not called like the foreign key or a
column. -/
structure MayJoin (owner : EntityRef) (name : String) (other : EntityRef) (w : World) : Prop where
  unlisted : ∀ items, w.listed owner name = some items → ∀ ref ∈ items, ref.id ≠ other.id
  keyed : ∀ w', (attach owner (.entity other) (.str name)).runOn w = (.ok (), w') →
    ∃ k, KeyedBy other k w' ∧ ∀ items, w.listed owner name = some items → ∀ ref ∈ items,
      ∀ known, KeyedBy ref known w' → known.sameKey k = false
  apart : owner.id = other.id →
    (∀ m, w.registry.mapperOf (w.entityAt other).model.id = .ok m →
      name ∉ m.key :: m.columns.names) ∧
    ∀ a t, (associationOfEntity owner (.str name)).runOn w = (.ok a, t) →
      a.foreignKey.text? ≠ some name

/-- What is left alone until a linked entity is held: whatever is set on other entities, and what
the owner holds under the name of the relation. -/
def Aloof (owner : EntityRef) (name : String) (target : Value) (ref : EntityRef)
    (column : String) : Prop :=
  (∀ other, target = .entity other → ref.id ≠ other.id) ∨ ref.id = owner.id ∧ column = name

theorem avoids_aloof {target : Value} {column : String} (htarget : target = .entity other)
    (h : owner.id = other.id → name ≠ column) :
    Avoids (Aloof owner name target) other column := by
  rintro ref known (hne | ⟨howner, rfl⟩) hid
  · exact absurd hid (hne other htarget)
  · exact h (howner.symm.trans hid)

/-- A key stays what it is when something is appended to a list. -/
theorem KeyedBy.append {number : Nat} {values : List Value} {place : Place}
    (hkey : KeyedBy ref k w) (hlist : w.shelf.valueAt number = .listAt values place) (v : Value) :
    KeyedBy ref k { w with shelf := w.shelf.append number v } := by
  obtain ⟨m, held, hm, hget, hlook⟩ := setKey_eq_some.mp hkey.key_eq
  have hdatum : (w.shelf.look held).isDatum = true := by
    rw [← hkey.datum, ← hlook]
    rfl
  exact ⟨hkey.inside, setKey_eq_some.mpr
    ⟨m, held, hm, hget, (Shelf.look_append hdatum hlist v).trans hlook⟩, hkey.datum, hkey.not_null⟩

/-- Holding a linked entity puts it behind those that are listed, which keep their keys. -/
theorem holdLinked_listed {a : Association} (hmany : a.kind = .hasMany)
    (hin : owner.id < w.entities.length) (hlisted : w.listed owner name = some items)
    (other : EntityRef) : ∃ w', (holdLinked owner a (.str name) other).runOn w = (.ok (), w') ∧
      owner.id < w'.entities.length ∧ w'.listed owner name = some (items ++ [other]) ∧
      ∀ ref ∈ items, ∀ k, KeyedBy ref k w → KeyedBy ref k w' := by
  have hheld := listed_eq_some.mp hlisted
  rw [holdLinked, Action.runOn_bind_ok (Action.runOn_get w), hmany]
  dsimp only
  split
  · next number values place _ hcurrent hlook =>
    rcases hheld with ⟨hnull, -⟩ | ⟨_, place, hshared, hlist⟩
    · cases hnull.symm.trans hcurrent
    cases hshared.symm.trans hcurrent
    refine ⟨_, rfl, hin, ?_, fun ref _ k hkey => hkey.append hlist _⟩
    refine listed_eq_some.mpr (.inr ⟨number, place, hcurrent, ?_⟩)
    rw [List.map_append]
    exact Shelf.valueAt_append_self hlist _
  · next hnone =>
    rcases hheld with ⟨hnull, rfl⟩ | ⟨number, place, hshared, hlist⟩
    · exact ⟨((holdAttribute owner (.str name) (.list [.entity other])).runOn w).2, rfl,
        ((holdAttribute_alters _ _) w).inside hin, holdAttribute_listed hin [other],
        fun _ href => absurd href List.not_mem_nil⟩
    · exact absurd (by rw [hshared]; exact hlist) (hnone number _ place hshared)
  · next hother _ => exact absurd rfl hother

theorem exists_of_forall₂_right {α β : Type} {R : α → β → Prop} {left : List α} {right : List β}
    (h : List.Forall₂ R left right) {b : β} (hb : b ∈ right) : ∃ a ∈ left, R a b := by
  induction h with
  | nil => cases hb
  | @cons a _ _ _ hfirst _ ih =>
    rcases List.mem_cons.mp hb with rfl | hb
    · exact ⟨a, List.mem_cons_self, hfirst⟩
    · obtain ⟨a', ha, hR⟩ := ih hb
      exact ⟨a', List.mem_cons_of_mem a ha, hR⟩

/-- After an entity was attached, or could not be, the owner holds a set if it did before. -/
theorem attach_holdsSet {target : Value}
    (hmany : ∀ a t, (associationOfEntity owner (.str name)).runOn w = (.ok a, t) →
      a.kind = .hasMany)
    (hset : HoldsSet owner name w)
    (hjoins : ∀ other, target = .entity other → MayJoin owner name other w) :
    HoldsSet owner name ((attach owner target (.str name)).runOn w).2 := by
  have hway : Leaving (Aloof owner name target) w
      ((attachForWrite owner target (.str name)).runOn w).2 :=
    attachForWrite_leaving fun a t hassociation other htarget column hcolumn =>
      avoids_aloof htarget fun hid heq =>
        ((hjoins other htarget).apart hid).2 a t hassociation (heq ▸ hcolumn)
  have hspared : ∀ items, w.listed owner name = some items → ∀ ref ∈ items, ∀ column,
      Aloof owner name target ref column := fun items hlisted ref href column =>
    .inl fun other htarget => (hjoins other htarget).unlisted items hlisted ref href
  have hleft {v : World} (h : Leaving (Aloof owner name target) w v) : HoldsSet owner name v :=
    h.holdsSet hset (.inr ⟨rfl, rfl⟩) hspared
  have hattach := attach_parts owner target (.str name)
  rcases hready : (attachForWrite owner target (.str name)).runOn w with ⟨fault | ⟨a, other⟩, t⟩ <;>
    rw [hready] at hway
  · rw [hattach, Action.runOn_bind_error hready]
    exact hleft hway
  obtain ⟨rfl, _, _, _, _, _, -, hassociation, -⟩ := attachForWrite_eq_ok hready
  have hwrite : Leaving (Aloof owner name (.entity other)) t ((writeLinked other).runOn t).2 :=
    writeLinked_leaving fun m' hm' column hcolumn => avoids_aloof rfl fun hid heq => by
      obtain ⟨m, hm, hkey, hcolumns, -⟩ :=
        attachForWrite_mapperOf (hid ▸ hset.inside) hready hm'
      rw [hkey, hcolumns, ← heq] at hcolumn
      exact ((hjoins other rfl).apart hid).1 m hm hcolumn
  rcases hwritten : (writeLinked other).runOn t with ⟨fault | _, v⟩ <;> rw [hwritten] at hwrite
  · rw [hattach, Action.runOn_bind_ok hready]
    show HoldsSet owner name
      ((writeLinked other >>= fun _ => holdLinked owner a (.str name) other).runOn t).2
    rw [Action.runOn_bind_error hwritten]
    exact hleft (trans_of (Leaving _) hway hwrite)
  have hleaves : Leaving (Aloof owner name (.entity other)) w v := trans_of (Leaving _) hway hwrite
  obtain ⟨items, keys, hlisted, hkeyed, hdiffer⟩ := hset.distinct
  obtain ⟨w', hhold, hin, hlonger, hstay⟩ := holdLinked_listed (hmany a _ hassociation)
    (Nat.lt_of_lt_of_le hset.inside hleaves.entities_le)
    (hleaves.listed hset.inside hlisted (.inr ⟨rfl, rfl⟩)) other
  have hrun : (attach owner (.entity other) (.str name)).runOn w = (.ok (), w') := by
    rw [hattach, Action.runOn_bind_ok hready]
    show (writeLinked other >>= fun _ => holdLinked owner a (.str name) other).runOn t = _
    rw [Action.runOn_bind_ok hwritten, hhold]
  rw [hrun]
  have hkept : List.Forall₂ (fun ref k => ref ∈ items ∧ KeyedBy ref k w') items keys :=
    ((List.forall₂_and_left _ _).mpr ⟨fun _ href => href, hkeyed⟩).imp fun ref k hkey =>
      ⟨hkey.1, hstay ref hkey.1 k (hleaves.keyedBy hkey.2 (hspared items hlisted ref hkey.1))⟩
  obtain ⟨k, hkey, hnew⟩ := (hjoins other rfl).keyed w' hrun
  refine ⟨hin, items ++ [other], keys ++ [k], hlonger,
    List.rel_append (hkept.imp fun _ _ h => h.2) (.cons hkey .nil), ?_⟩
  refine List.pairwise_append.mpr ⟨hdiffer, List.pairwise_singleton _ k,
    fun known hknown _ hk => ?_⟩
  obtain rfl := List.mem_singleton.mp hk
  obtain ⟨ref, -, href, hrefKey⟩ := exists_of_forall₂_right hkept hknown
  exact hnew items hlisted ref href known hrefKey

/-! ## 6. One call after the other -/

/-- One call that loads or extends the list of a relation to many, however it ends.  Populating is
answered with rows that have keys of their own, and attached are only entities that may join. -/
inductive Relates (owner : EntityRef) (name : String) (w : World) : World → Prop
  | populated (shape : Shape)
      (hmany : ∀ a t, (associationOfEntity owner (.str name)).runOn w = (.ok a, t) →
        a.kind = .hasMany)
      (hanswers : AnswersKeys owner name shape w) :
      Relates owner name w ((populate owner (.str name) shape).runOn w).2
  | attached (target : Value)
      (hmany : ∀ a t, (associationOfEntity owner (.str name)).runOn w = (.ok a, t) →
        a.kind = .hasMany)
      (hjoins : ∀ other, target = .entity other → MayJoin owner name other w) :
      Relates owner name w ((attach owner target (.str name)).runOn w).2

theorem Relates.sound (h : Relates owner name w w') (hw : w.Sound) : w'.Sound := by
  cases h with
  | populated shape => exact (populate_sends owner (.str name) shape w).sound hw
  | attached target => exact (attach_sends owner target (.str name) w).sound hw

theorem Relates.holdsSet (h : Relates owner name w w') (hw : w.Sound)
    (hset : HoldsSet owner name w) : HoldsSet owner name w' := by
  cases h with
  | populated shape hmany hanswers =>
    rcases hrun : (populate owner (.str name) shape).runOn w with ⟨fault | _, w'⟩
    · have hleaves : Leaving (fun _ _ => True) w w' :=
        (populate_failsIn owner (.str name) shape w fault w' hrun).leaving
      exact hleaves.holdsSet hset trivial fun _ _ _ _ _ => trivial
    · exact populate_holdsSet hw hmany hanswers hrun
  | attached target hmany hjoins => exact attach_holdsSet hmany hset hjoins

/-- **The list of a relation to many stays a set.**  Whatever is populated and attached, and whether
it goes well, the owner never holds two entities with the same key, as long as populating is
answered with rows of different keys, every attached entity has a key afterwards, and none is
attached that is listed already, itself or by its key. -/
theorem related_entities_stay_a_set (h : Relation.ReflTransGen (Relates owner name) w w')
    (hw : w.Sound) (hset : HoldsSet owner name w) : HoldsSet owner name w' := by
  have hboth : w'.Sound ∧ HoldsSet owner name w' := by
    induction h with
    | refl => exact ⟨hw, hset⟩
    | tail _ hcall ih => exact ⟨hcall.sound ih.1, hcall.holdsSet ih.1 ih.2⟩
  exact hboth.2

/-! ## 7. The animals of a shelter -/

/-- Where nothing is said about columns, none is left out. -/
theorem leftOut_nothing {excluded : List String} (h : LeftOut {} excluded) : excluded = [] := by
  rcases h with rfl | ⟨filter, o, ho, rfl⟩
  · rfl
  · exact exclude_eq_nil rfl ho

/-- Whether a relation leads to many. -/
def leadsToMany (owner : EntityRef) (name : String) (w : World) : Bool :=
  match (associationOfEntity owner (.str name)).runOn w with
  | (.ok a, _) =>
    match a.kind with
    | .hasMany => true
    | _ => false
  | _ => true

theorem leadsToMany_eq_true (h : leadsToMany owner name w = true) (a : Association) (t : World)
    (hassociation : (associationOfEntity owner (.str name)).runOn w = (.ok a, t)) :
    a.kind = .hasMany := by
  rw [leadsToMany, hassociation] at h
  dsimp only at h
  split at h
  · assumption
  · cases h

/-- Whether rows each have a key of their own. -/
def ownKeys (key : String) (rows : List Row) : Bool :=
  match rows.mapM fun row => (Dictionary.ofList row).get? key with
  | some keys => keys.all (fun k => k.isDatum && !k.isNull) &&
      decide (keys.Pairwise fun k known => k.sameKey known = false)
  | none => false

theorem ownKeys_eq_true {key : String} {rows : List Row} (h : ownKeys key rows = true) :
    OwnKeys key rows := by
  unfold ownKeys at h
  split at h
  · next keys hkeys =>
    simp only [Bool.and_eq_true, List.all_eq_true, Bool.not_eq_true', decide_eq_true_eq] at h
    have hboth := (List.forall₂_and_left _ _).mpr ⟨h.1, (forall₂_of_mapM hkeys).flip⟩
    exact ⟨keys, (hboth.imp fun k row hk => ⟨hk.2, hk.1.1, hk.1.2⟩).flip, h.2⟩
  · cases h

/-- Whether populating a relation is answered with rows that each have a key of their own. -/
def answersKeys (owner : EntityRef) (name : String) (w : World) : Bool :=
  match (associationOfEntity owner (.str name)).runOn w with
  | (.ok a, t) =>
    match resolvedModel a.resolved >>= t.mapper,
      ((populate owner (.str name) {}).runOn w).2.trace.drop w.trace.length with
    | .ok m, [⟨_, _, .ok (.rows rows)⟩] => ownKeys m.key rows
    | _, _ => false
  | _ => false

theorem answersKeys_eq_true (h : answersKeys owner name w = true) :
    AnswersKeys owner name {} w := by
  rintro a t model m ⟨call, seen, result⟩ rows hassociation hmodel hm htrace ⟨⟩
  rw [answersKeys, hassociation, htrace, List.drop_left] at h
  dsimp only at h
  rw [show (resolvedModel a.resolved >>= t.mapper) = .ok m from bind_eq_ok.mpr ⟨_, hmodel, hm⟩] at h
  refine ⟨ownKeys_eq_true h, fun excluded hexcluded => ?_⟩
  rw [leftOut_nothing hexcluded]
  exact List.not_mem_nil

/-- Whether a number is set on an entity as its key. -/
def hasKey (ref : EntityRef) (number : Int) (w : World) : Bool :=
  decide (ref.id < w.entities.length) &&
  match w.setKey ref with
  | some (.intAt key none) => key == number
  | _ => false

theorem hasKey_eq_true {number : Int} (h : hasKey ref number w = true) :
    KeyedBy ref (.int number) w := by
  simp only [hasKey, Bool.and_eq_true, decide_eq_true_eq] at h
  obtain ⟨hin, h⟩ := h
  split at h
  · next key hkey => exact ⟨hin, by rw [hkey, beq_iff_eq.mp h], rfl, rfl⟩
  · cases h

/-- An owner that holds nothing yet holds a set. -/
theorem holdsSet_of_none (hin : owner.id < w.entities.length)
    (hnone : w.listed owner name = some []) : HoldsSet owner name w :=
  ⟨hin, [], [], hnone, .nil, .nil⟩

/-- The world after the animals of the shelter were loaded. -/
def withAnimals (w : World) : World := ((populate shelter (.str "animals") {}).runOn w).2

/-- The world after an animal was attached to the shelter. -/
def withAnother (ref : EntityRef) (w : World) : World :=
  ((attach shelter (.entity ref) (.str "animals")).runOn w).2

/-- A world in which an animal has no row yet. -/
def straying : World := ((make 1 [("name", .str "Tom")]).runOn housing).2

/-- The animal that has no row yet. -/
def stray : EntityRef := ⟨1, "Animal"⟩

/-- The animal that is loaded in that world. -/
def housed : EntityRef := ⟨2, "Animal"⟩

/-- The stray is attached after the animals of the shelter were loaded. -/
theorem stray_joins_the_animals :
    straying.Sound ∧ HoldsSet shelter "animals" straying ∧
    Relation.ReflTransGen (Relates shelter "animals") straying
      (withAnother stray (withAnimals straying)) ∧
    (withAnother stray (withAnimals straying)).listed shelter "animals" = some [housed, stray] ∧
    HoldsSet shelter "animals" (withAnother stray (withAnimals straying)) := by
  have hsound : straying.Sound :=
    ((make_sends 1 [("name", .str "Tom")] : Sends [] _) housing).sound housing_sound
  have hin : shelter.id < straying.entities.length := by decide +kernel
  have hnone : straying.listed shelter "animals" = some [] := by decide +kernel
  have hmany : leadsToMany shelter "animals" straying = true := by decide +kernel
  have hanswers : answersKeys shelter "animals" straying = true := by decide +kernel
  have hloaded : (withAnimals straying).listed shelter "animals" = some [housed] := by
    decide +kernel
  have hmany' : leadsToMany shelter "animals" (withAnimals straying) = true := by decide +kernel
  have hlisted : (withAnother stray (withAnimals straying)).listed shelter "animals" =
      some [housed, stray] := by decide +kernel
  have hhoused : hasKey housed 7 (withAnother stray (withAnimals straying)) = true := by
    decide +kernel
  have hstray : hasKey stray 8 (withAnother stray (withAnimals straying)) = true := by
    decide +kernel
  generalize straying = w at *
  have hjoins : MayJoin shelter "animals" stray (withAnimals w) := by
    refine ⟨fun items hitems ref href => ?_, fun w' hrun => ?_, fun hid => nomatch hid⟩
    · cases hloaded.symm.trans hitems
      cases List.mem_singleton.mp href
      decide
    · obtain rfl : withAnother stray (withAnimals w) = w' := congrArg Prod.snd hrun
      refine ⟨.int 8, hasKey_eq_true hstray, fun items hitems ref href known hknown => ?_⟩
      cases hloaded.symm.trans hitems
      cases List.mem_singleton.mp href
      cases hknown.key_eq.symm.trans (hasKey_eq_true hhoused).key_eq
      rfl
  have hcalls : Relation.ReflTransGen (Relates shelter "animals") w
      (withAnother stray (withAnimals w)) :=
    .tail (.single (.populated {} (leadsToMany_eq_true hmany) (answersKeys_eq_true hanswers)))
      (.attached (.entity stray) (leadsToMany_eq_true hmany') fun other hother => by
        cases hother
        exact hjoins)
  have hset := holdsSet_of_none hin hnone
  exact ⟨hsound, hset, hcalls, hlisted, related_entities_stay_a_set hcalls hsound hset⟩

/-- Whether a call went well. -/
def goesWell (outcome : Except Fault Unit) : Bool :=
  match outcome with
  | .ok _ => true
  | .error _ => false

theorem goesWell_eq_true {outcome : Except Fault Unit} (h : goesWell outcome = true) :
    outcome = .ok () := by
  cases outcome with
  | ok => rfl
  | error fault => cases h

/-- An animal that was loaded and is attached then is listed twice. -/
theorem animal_attached_again_is_listed_twice :
    (∀ a t, (associationOfEntity shelter (.str "animals")).runOn housing = (.ok a, t) →
      a.kind = .hasMany) ∧
    HoldsSet shelter "animals" housing ∧ AnswersKeys shelter "animals" {} housing ∧
    ((populate shelter (.str "animals") {}).runOn housing).1 = .ok () ∧
    ((attach shelter (.entity animal) (.str "animals")).runOn (withAnimals housing)).1 = .ok () ∧
    KeyedBy animal (.int 7) (withAnother animal (withAnimals housing)) ∧
    (withAnother animal (withAnimals housing)).listed shelter "animals" = some [animal, animal] ∧
    ¬ HoldsSet shelter "animals" (withAnother animal (withAnimals housing)) := by
  have hmany : leadsToMany shelter "animals" housing = true := by decide +kernel
  have hin : shelter.id < housing.entities.length := by decide +kernel
  have hnone : housing.listed shelter "animals" = some [] := by decide +kernel
  have hanswers : answersKeys shelter "animals" housing = true := by decide +kernel
  have hpopulated : goesWell ((populate shelter (.str "animals") {}).runOn housing).1 = true := by
    decide +kernel
  have hattached : goesWell ((attach shelter (.entity animal) (.str "animals")).runOn
      (withAnimals housing)).1 = true := by decide +kernel
  have hkey : hasKey animal 7 (withAnother animal (withAnimals housing)) = true := by
    decide +kernel
  have htwice : (withAnother animal (withAnimals housing)).listed shelter "animals" =
      some [animal, animal] := by decide +kernel
  generalize housing = w at *
  refine ⟨leadsToMany_eq_true hmany, holdsSet_of_none hin hnone, answersKeys_eq_true hanswers,
    goesWell_eq_true hpopulated, goesWell_eq_true hattached, hasKey_eq_true hkey, htwice, ?_⟩
  rintro ⟨-, items, keys, hitems, hkeyed, hdiffer⟩
  cases htwice.symm.trans hitems
  obtain _ | ⟨hfirst, _ | ⟨hsecond, _ | _⟩⟩ := hkeyed
  cases hfirst.key_eq.symm.trans (hasKey_eq_true hkey).key_eq
  cases hsecond.key_eq.symm.trans (hasKey_eq_true hkey).key_eq
  exact absurd (List.pairwise_pair.mp hdiffer) (by decide)

end World
end RowMapper
