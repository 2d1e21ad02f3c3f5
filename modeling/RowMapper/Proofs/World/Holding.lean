import RowMapper.Proofs.World.Call

/-!
# What an entity holds

`w.Holds ref name v` says that in a world an entity has a value set under a name.  What it has
there is what came of the value when it was put on the shelf, so that it can be had back
(`Shelf.Kept`).  Setting attributes touches one entity (`Alters`), and making entities touches none
that exists (`Adds`).  Setting a mapping of attributes leaves the last value that the mapping gives
for a name, or else what was held before (`setEntries_holds`).
-/
namespace RowMapper

/-! ## 1. Names and values -/

theorem Value.sameKey_str (known : Value) (name : String) :
    known.sameKey (.str name) = (known.text? == some name) := by
  cases known <;> simp [Value.sameKey, Value.sharePlace, Value.place, Value.text?, Value.asInt?]

/-- The value under a text after a value was written under one. -/
theorem Entries.get?_insert {α : Type} (entries : List (Value × α)) (a b : String) (v : α) :
    Entries.get? (Entries.insert entries (.str a) v) (.str b) =
      if a = b then some v else Entries.get? entries (.str b) := by
  unfold Entries.get?
  induction entries with
  | nil => by_cases h : a = b <;> simp [Entries.insert, Value.sameKey_str, Value.text?, h]
  | cons entry rest ih =>
    obtain ⟨known, old⟩ := entry
    simp only [Value.sameKey_str] at ih
    by_cases hknown : known.text? = some a
    · by_cases h : a = b <;> simp [Entries.insert, Value.sameKey_str, hknown, h]
    · by_cases hb : known.text? = some b
      · have hne : a ≠ b := fun h => hknown (h ▸ hb)
        simp [Entries.insert, Value.sameKey_str, hb, Ne.symm hne, hne]
      · simp [Entries.insert, Value.sameKey_str, hknown, hb, ih]

/-- The value under a text is that of the dictionary. -/
theorem Entries.get?_ofNamed (d : Dictionary Value) (name : String) :
    Entries.get? (Entries.ofNamed d) (.str name) = d.get? name := by
  induction d with
  | nil => rfl
  | cons entry rest ih =>
    obtain ⟨known, value⟩ := entry
    unfold Entries.get? Entries.ofNamed at ih ⊢
    by_cases hname : known = name <;>
      simp [Value.sameKey_str, Value.text?, Dictionary.get?, hname, ← ih]

/-- Writing under a text is writing in a dictionary. -/
theorem Entries.insert_ofNamed (d : Dictionary Value) (name : String) (v : Value) :
    Entries.insert (Entries.ofNamed d) (.str name) v = Entries.ofNamed (d.insert name v) := by
  induction d with
  | nil => rfl
  | cons entry rest ih =>
    obtain ⟨known, old⟩ := entry
    unfold Entries.ofNamed at ih ⊢
    by_cases hname : known = name <;>
      simp [Entries.insert, Value.sameKey_str, Value.text?, Dictionary.insert, hname, ← ih]

/-- Writing under a text in named entries is writing in the dictionary. -/
theorem Entries.named?_insert {entries : Entries} {d : Dictionary Value}
    (h : named? entries = some d) (name : String) (v : Value) :
    named? (Entries.insert entries (.str name) v) = some (d.insert name v) := by
  induction entries generalizing d with
  | nil =>
    cases h
    rfl
  | cons entry rest ih =>
    obtain ⟨key, old⟩ := entry
    rw [named?] at h
    obtain ⟨known, hknown, h⟩ := Option.bind_eq_some_iff.mp h
    obtain ⟨others, hothers, h⟩ := Option.bind_eq_some_iff.mp h
    cases h
    by_cases hname : known = name
    · simp [Entries.insert, Value.sameKey_str, named?, hknown, hothers, Dictionary.insert, hname]
    · simp [Entries.insert, Value.sameKey_str, named?, hknown, ih hothers, Dictionary.insert, hname]

/-- Writing named values in named entries is writing in the dictionary. -/
theorem Entries.named?_update_ofNamed {entries : Entries} {d : Dictionary Value}
    (h : named? entries = some d) (more : Dictionary Value) :
    named? (Entries.update entries (Entries.ofNamed more)) = some (d.update more) := by
  induction more generalizing entries d with
  | nil => exact h
  | cons entry rest ih => exact ih (named?_insert h entry.1 entry.2)

/-- The last value that entries give for a name. -/
def Entries.lastGiven (name : String) : Entries → Option Value
  | [] => none
  | (key, v) :: rest => (lastGiven name rest).or (if key.text? = some name then some v else none)

/-- What came of a value when it was put on the shelf. -/
def Shelf.Kept (s : Shelf) (v held : Value) : Prop :=
  ∃ before after, Shelf.store v before = (held, after) ∧ after <+: s

theorem Shelf.kept_store (v : Value) (s : Shelf) : Kept (Shelf.store v s).2 v (Shelf.store v s).1 :=
  ⟨s, _, rfl, List.prefix_rfl⟩

theorem Shelf.Kept.mono {s s' : Shelf} (h : s <+: s') {v held : Value} (hkept : Kept s v held) :
    Kept s' v held := by
  obtain ⟨before, after, hstore, hprefix⟩ := hkept
  exact ⟨before, after, hstore, hprefix.trans h⟩

theorem Shelf.Kept.isNull_eq {s : Shelf} {v held : Value} (h : Kept s v held) :
    held.isNull = v.isNull := by
  obtain ⟨before, after, hstore, -⟩ := h
  rw [← isNull_store v before, hstore]

/-- A value as a database has it: no collection, and from no shelf. -/
def Value.isDatum : Value → Bool
  | .null | .bool _ | .intAt _ none | .floatAt _ none | .strAt _ none | .bytesAt _ none => true
  | _ => false

theorem Value.replaceShared_datum {v : Value} (h : v.isDatum = true) (contents : Nat → Value) :
    v.replaceShared contents = v := by
  cases v <;> first | rfl | cases h

theorem Shelf.expandWithin_datum {v : Value} (h : v.isDatum = true) (s : Shelf) (depth : Nat) :
    s.expandWithin depth v = v := by
  cases depth with
  | zero => rfl
  | succ depth => exact Value.replaceShared_datum h _

/-- A value of a database that was put on the shelf is had back, perhaps with its number. -/
theorem Shelf.expand_kept {s : Shelf} {v held : Value} (h : Kept s v held)
    (hv : v.isDatum = true) : s.expand held = v ∨ ∃ number, s.expand held = v.lyingAt number := by
  obtain ⟨before, after, hstore, hprefix⟩ := h
  have hput : Shelf.store v before = put before v := by
    cases v <;> first | rfl | (rename_i place; cases place <;> first | rfl | cases hv)
  rw [hput, put] at hstore
  split at hstore <;> cases hstore
  · exact .inl (expandWithin_datum hv s _)
  · refine .inr ⟨before.length, ?_⟩
    have hlies : s.valueAt before.length = v := by
      obtain ⟨more, rfl⟩ := hprefix
      simp [valueAt]
    show ((s.expandWithin s.length (s.valueAt before.length)).lyingAt before.length) = _
    rw [hlies, expandWithin_datum hv]

namespace World

/-! ## 2. Frames -/

variable {ref : EntityRef} {w w' w'' : World}

/-- Only one entity and the shelf are touched, and the entity stays of its class. -/
def Alters (ref : EntityRef) (w w' : World) : Prop :=
  ∃ e shelf, w' = { w with entities := w.entities.set ref.id e, shelf } ∧ w.shelf <+: shelf ∧
    e.model = (w.entityAt ref).model

theorem set_entityAt (w : World) (ref : EntityRef) :
    w.entities.set ref.id (w.entityAt ref) = w.entities := by
  unfold entityAt
  by_cases h : ref.id < w.entities.length
  · simp [h]
  · exact List.set_eq_of_length_le (Nat.le_of_not_lt h)

theorem entityAt_set (h : ref.id < w.entities.length) (e : Entity) (shelf : Shelf) :
    ({ w with entities := w.entities.set ref.id e, shelf } : World).entityAt ref = e := by
  simp [entityAt, h]

instance (ref : EntityRef) : IsPreorder World (Alters ref) where
  refl w := ⟨w.entityAt ref, w.shelf, by rw [set_entityAt], List.prefix_rfl, rfl⟩
  trans w w' w'' h h' := by
    obtain ⟨e, shelf, rfl, hshelf, hmodel⟩ := h
    obtain ⟨e', shelf', rfl, hshelf', hmodel'⟩ := h'
    by_cases hin : ref.id < w.entities.length
    · rw [entityAt_set hin] at hmodel'
      exact ⟨e', shelf', by simp, hshelf.trans hshelf', hmodel'.trans hmodel⟩
    · have hout (x : Entity) : w.entities.set ref.id x = w.entities :=
        List.set_eq_of_length_le (Nat.le_of_not_lt hin)
      exact ⟨e, shelf', by simp [hout], hshelf.trans hshelf', hmodel⟩

theorem Alters.inside (h : Alters ref w w') (hin : ref.id < w.entities.length) :
    ref.id < w'.entities.length := by
  obtain ⟨e, shelf, rfl, -⟩ := h
  simpa using hin

theorem Alters.model_eq (h : Alters ref w w') (hin : ref.id < w.entities.length) :
    (w'.entityAt ref).model = (w.entityAt ref).model := by
  obtain ⟨e, shelf, rfl, -, hmodel⟩ := h
  rw [entityAt_set hin, hmodel]

theorem Alters.registry_eq (h : Alters ref w w') : w'.registry = w.registry := by
  obtain ⟨e, shelf, rfl, -⟩ := h
  rfl

/-- Entities are made, and the shelf is touched. -/
def Adds (w w' : World) : Prop :=
  ∃ made shelf, w' = { w with entities := w.entities ++ made, shelf } ∧ w.shelf <+: shelf

instance : IsPreorder World Adds where
  refl w := ⟨[], w.shelf, by simp, List.prefix_rfl⟩
  trans w w' w'' h h' := by
    obtain ⟨made, shelf, rfl, hshelf⟩ := h
    obtain ⟨more, shelf', rfl, hshelf'⟩ := h'
    exact ⟨made ++ more, shelf', by simp, hshelf.trans hshelf'⟩

theorem Adds.trace_eq (h : Adds w w') : w'.trace = w.trace := by
  obtain ⟨made, shelf, rfl, -⟩ := h
  rfl

theorem Adds.length_le (h : Adds w w') : w.entities.length ≤ w'.entities.length := by
  obtain ⟨made, shelf, rfl, -⟩ := h
  simp

theorem Adds.registry_eq (h : Adds w w') : w'.registry = w.registry := by
  obtain ⟨made, shelf, rfl, -⟩ := h
  rfl

theorem Adds.shelf_prefix (h : Adds w w') : w.shelf <+: w'.shelf := by
  obtain ⟨made, shelf, rfl, hshelf⟩ := h
  exact hshelf

theorem Adds.entityAt_eq (h : Adds w w') (hin : ref.id < w.entities.length) :
    w'.entityAt ref = w.entityAt ref := by
  obtain ⟨made, shelf, rfl, -⟩ := h
  simp [entityAt, List.getElem?_append_left hin]

/-! ## 3. Holding -/

/-- An entity has a value set under a name. -/
def Holds (ref : EntityRef) (name : String) (v : Value) (w : World) : Prop :=
  ∃ held, Entries.get? (w.entityAt ref).attributes (.str name) = some held ∧
    Shelf.Kept w.shelf v held

theorem Holds.adds {name : String} {v : Value} (h : Holds ref name v w) (hadds : Adds w w')
    (hin : ref.id < w.entities.length) : Holds ref name v w' := by
  obtain ⟨held, hget, hkept⟩ := h
  rw [← hadds.entityAt_eq hin] at hget
  obtain ⟨made, shelf, rfl, hshelf⟩ := hadds
  exact ⟨held, hget, hkept.mono hshelf⟩

/-- What is set under the name of the key is the key. -/
theorem keyValue_of_get? {m : Model.Mapper} {held : Value}
    (hm : w.registry.mapperOf (w.entityAt ref).model.id = .ok m)
    (hget : Entries.get? (w.entityAt ref).attributes (.str m.key) = some held) :
    w.keyValue ref = .ok held := by
  rw [keyValue, hm]
  show w.heldAttribute ref m.key = _
  simp only [heldAttribute, hget]

/-- An entity has as its key what came of the value that it holds under the name of the key. -/
theorem Holds.keyValue {m : Model.Mapper} {v : Value} (h : Holds ref m.key v w)
    (hm : w.registry.mapperOf (w.entityAt ref).model.id = .ok m) :
    ∃ held, w.keyValue ref = .ok held ∧ Shelf.Kept w.shelf v held := by
  obtain ⟨held, hget, hkept⟩ := h
  exact ⟨held, keyValue_of_get? hm hget, hkept⟩

/-- What is held stays when something else of the entity is changed. -/
theorem Holds.updateEntity {name : String} {v : Value} (h : Holds ref name v w)
    (hin : ref.id < w.entities.length) {change : Entity → Entity}
    (hchange : ∀ e, (change e).attributes = e.attributes) :
    Holds ref name v ((World.updateEntity ref change).runOn w).2 := by
  obtain ⟨held, hget, hkept⟩ := h
  have hentity : ((World.updateEntity ref change).runOn w).2.entityAt ref =
      change (w.entityAt ref) :=
    entityAt_set hin _ w.shelf
  exact ⟨held, by rw [hentity, hchange, hget], hkept⟩

theorem store_alters (v : Value) : (store v).Obeys (Alters ref) := fun w =>
  ⟨w.entityAt ref, _, by rw [set_entityAt]; rfl, (Shelf.store_grows v w.shelf).isPrefix, rfl⟩

theorem updateEntity_alters {change : Entity → Entity} (h : ∀ e, (change e).model = e.model) :
    (updateEntity ref change).Obeys (Alters ref) := fun w =>
  ⟨change (w.entityAt ref), w.shelf, rfl, List.prefix_rfl, h _⟩

theorem holdAttribute_alters (name value : Value) :
    (holdAttribute ref name value).Obeys (Alters ref) :=
  .bind (store_alters value) fun _ => updateEntity_alters fun _ => rfl

theorem setAttribute_alters (name : String) (value : Value) :
    (setAttribute ref name value).Obeys (Alters ref) :=
  .bind .get fun _ => .guarded fun _ => holdAttribute_alters _ value

theorem setEntries_alters (ref : EntityRef) (entries : Entries) :
    (setEntries ref entries).Obeys (Alters ref) := by
  induction entries with
  | nil => exact .pure _
  | cons entry rest ih =>
    obtain ⟨name, value⟩ := entry
    rw [setEntries]
    cases name.text? with
    | some name => exact .bind (setAttribute_alters name value) fun _ => ih
    | none => exact .throw _

/-- An attribute that could be set is held then, and the others are held as before. -/
theorem setAttribute_holds {name : String} {value : Value}
    (hrun : (setAttribute ref name value).runOn w = (.ok (), w'))
    (hin : ref.id < w.entities.length) : Holds ref name value w' ∧
      ∀ other v, other ≠ name → Holds ref other v w → Holds ref other v w' := by
  rw [setAttribute, Action.runOn_bind_ok (Action.runOn_get w)] at hrun
  obtain ⟨-, hrun⟩ := Action.runOn_guarded_eq_ok.mp hrun
  cases hrun
  have hget (other : String) := Entries.get?_insert (w.entityAt ref).attributes name other
    (Shelf.store value w.shelf).1
  refine ⟨⟨(Shelf.store value w.shelf).1, ?_, Shelf.kept_store value w.shelf⟩, ?_⟩
  · rw [entityAt_set hin]
    exact (hget name).trans (if_pos rfl)
  · rintro other v hne ⟨held, hheld, hkept⟩
    refine ⟨held, ?_, hkept.mono (Shelf.store_grows value w.shelf).isPrefix⟩
    rw [entityAt_set hin]
    exact (hget other).trans ((if_neg (Ne.symm hne)).trans hheld)

/-- Entries that could be set leave the last value that they give for a name, or what was held. -/
theorem setEntries_holds {name : String} {v : Value} {entries : Entries}
    (hrun : (setEntries ref entries).runOn w = (.ok (), w')) (hin : ref.id < w.entities.length)
    (h : Entries.lastGiven name entries = some v ∨
      Entries.lastGiven name entries = none ∧ Holds ref name v w) : Holds ref name v w' := by
  induction entries generalizing w with
  | nil =>
    cases hrun
    rcases h with h | ⟨-, h⟩
    · cases h
    · exact h
  | cons entry rest ih =>
    obtain ⟨key, value⟩ := entry
    rw [setEntries] at hrun
    cases hkey : key.text? with
    | none =>
      rw [hkey] at hrun
      cases hrun
    | some written =>
      rw [hkey] at hrun
      obtain ⟨_, t, hset, hrest⟩ := Action.runOn_bind_eq_ok.mp hrun
      obtain ⟨hwritten, hothers⟩ := setAttribute_holds hset hin
      refine ih hrest (((setAttribute_alters written value).of_run hset).inside hin) ?_
      cases hlast : Entries.lastGiven name rest with
      | some last =>
        rcases h with h | ⟨h, -⟩ <;> simp [Entries.lastGiven, hlast] at h
        exact .inl (congrArg some h)
      | none =>
        refine .inr ⟨rfl, ?_⟩
        by_cases hname : written = name
        · subst hname
          rcases h with h | ⟨h, -⟩ <;> simp [Entries.lastGiven, hlast, hkey] at h
          exact h ▸ hwritten
        · rcases h with h | ⟨-, h⟩
          · simp [Entries.lastGiven, hlast, hkey, hname] at h
          · exact hothers name v (Ne.symm hname) h

end World
end RowMapper
