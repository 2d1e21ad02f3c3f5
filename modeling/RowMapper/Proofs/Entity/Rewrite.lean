import RowMapper.Proofs.Entity.Table
import RowMapper.Proofs.Entity.WriteBack
import RowMapper.Proofs.Sql.Store

/-!
# What is written back

An entity that was made of a row carries what the row has, and a finder that changes the row sets on
it what is given (`Carries`).  Then every column that the entity carries is written back, not only
those that are given: `rewritten` is the data of the write.  So a column that is not given is written
with the value that was read, whatever stands in the row by then (`findByIdAndUpdate_rewrites`).
-/
namespace RowMapper

open Model (Mapper)

namespace World

variable {w t u w' : World} {ref : EntityRef} {m mapper : Mapper}
  {given given' : String → Option Value}

/-! ## 1. What an entity carries -/

/-- Under each name an entity has what came of a value on the shelf, or nothing. -/
def Carries (ref : EntityRef) (given : String → Option Value) (w : World) : Prop :=
  ∀ name, Option.Rel (Shelf.Kept w.shelf) (given name)
    (Entries.get? (w.entityAt ref).attributes (.str name))

theorem Carries.mono (h : Carries ref given w)
    (hattributes : (w'.entityAt ref).attributes = (w.entityAt ref).attributes)
    (hshelf : w.shelf <+: w'.shelf) : Carries ref given w' := by
  intro name
  rw [hattributes]
  exact Dictionary.rel_imp (fun _ _ hkept => hkept.mono hshelf) (h name)

theorem Carries.congr (h : Carries ref given w) (heq : ∀ name, given name = given' name) :
    Carries ref given' w := funext heq ▸ h

theorem Carries.adds (h : Carries ref given w) (hadds : Adds w w')
    (hin : ref.id < w.entities.length) : Carries ref given w' :=
  h.mono (congrArg Entity.attributes (hadds.entityAt_eq hin)) hadds.shelf_prefix

theorem Carries.updateEntity {change : Entity → Entity} {outcome : Except Fault Unit}
    (h : Carries ref given w) (hrun : (World.updateEntity ref change).runOn w = (outcome, w'))
    (hin : ref.id < w.entities.length) (hchange : ∀ e, (change e).attributes = e.attributes) :
    Carries ref given w' := by
  have hentity : ((World.updateEntity ref change).runOn w).2.entityAt ref =
      change (w.entityAt ref) :=
    entityAt_set hin _ w.shelf
  rw [hrun] at hentity
  cases hrun
  exact h.mono (by rw [hentity, hchange]) List.prefix_rfl

theorem setAttribute_carries {name : String} {value : Value}
    (hrun : (setAttribute ref name value).runOn w = (.ok (), w'))
    (hin : ref.id < w.entities.length) (h : Carries ref given w) :
    Carries ref (fun other => if name = other then some value else given other) w' := by
  rw [setAttribute, Action.runOn_bind_ok (Action.runOn_get w)] at hrun
  obtain ⟨-, hrun⟩ := Action.runOn_guarded_eq_ok.mp hrun
  cases hrun
  intro other
  rw [entityAt_set hin]
  show Option.Rel (Shelf.Kept (Shelf.store value w.shelf).2)
    (if name = other then some value else given other)
    (Entries.get? (Entries.insert (w.entityAt ref).attributes (.str name)
      (Shelf.store value w.shelf).1) (.str other))
  rw [Entries.get?_insert]
  split
  · exact .some (Shelf.kept_store value w.shelf)
  · exact Dictionary.rel_imp
      (fun _ _ hkept => hkept.mono (Shelf.store_grows value w.shelf).isPrefix) (h other)

/-- Entries that could be set leave the last value that they give for a name, or what was carried. -/
theorem setEntries_carries {entries : Entries}
    (hrun : (setEntries ref entries).runOn w = (.ok (), w')) (hin : ref.id < w.entities.length)
    (h : Carries ref given w) :
    Carries ref (fun name => (Entries.lastGiven name entries).or (given name)) w' := by
  induction entries generalizing w given with
  | nil =>
    cases hrun
    exact h
  | cons entry rest ih =>
    obtain ⟨key, value⟩ := entry
    rw [setEntries] at hrun
    cases hkey : key.text? with
    | none =>
      rw [hkey] at hrun
      cases hrun
    | some written =>
      rw [hkey] at hrun
      obtain ⟨_, t, hset, hrest⟩ := Action.runOn_bind_eq_ok.mp hrun
      refine (ih hrest (((setAttribute_alters written value).of_run hset).inside hin)
        (setAttribute_carries hset hin h)).congr fun name => ?_
      rw [Entries.lastGiven.eq_def _ ((key, value) :: rest)]
      simp only [hkey, Option.some.injEq, Option.or_assoc]
      split <;> rfl

/-- The entity of a row carries what the row has, but for the columns left out. -/
theorem hydrate_carries {model : Nat} {session : String} {excluded : List String} {row : Row}
    (hrun : (hydrate model session excluded row).runOn w = (.ok ref, w')) :
    Carries ref (fun name => if name ∈ excluded then none else (Dictionary.ofList row).get? name)
      w' := by
  rw [hydrate_eq, Action.runOn_bind_ok (Action.runOn_get w),
    Action.runOn_bind_ok (addEntity_runOn _ w)] at hrun
  obtain ⟨_, t, hset, hrun⟩ := Action.runOn_bind_eq_ok.mp hrun
  obtain ⟨_, t', hupdate, hrun⟩ := Action.runOn_bind_eq_ok.mp hrun
  cases hrun
  have hin : w.entities.length <
      (w.entities ++ [({ model := (w.registry.classAt model).ref } : Entity)]).length := by simp
  have hnew : Carries ⟨w.entities.length, (w.registry.classAt model).ref.name⟩ (fun _ => none)
      { w with entities := w.entities ++ [{ model := (w.registry.classAt model).ref }] } := by
    intro name
    simp only [entityAt, List.getElem?_concat_length, Option.getD_some]
    exact .none
  have hcarries := setEntries_carries hset hin hnew
  refine (hcarries.updateEntity hupdate (((setEntries_alters _ _).of_run hset).inside hin)
    fun _ => rfl).congr fun name => ?_
  have hnodup : Dictionary.names
      ((Dictionary.ofList row).filter fun entry => !excluded.contains entry.1) |>.Nodup :=
    (Dictionary.nodup_names_ofList row).sublist (List.filter_sublist.map _)
  rw [Entries.lastGiven_ofNamed hnodup, Option.or_none]
  exact Dictionary.get?_without _ excluded name

/-! ## 2. The data of a write -/

/-- The data of a write: the columns but the key that are known, in their order. -/
def written (m : Mapper) (known : String → Option Value) : Dictionary Value :=
  (m.columns.names.filterMap fun name => (known name).map fun value => (name, value)).filter
    fun entry => entry.1 != m.key

theorem written_alike {P : Value → Value → Prop} {known known' : String → Option Value}
    (h : ∀ name, Option.Rel P (known name) (known' name)) :
    Dictionary.Alike (fun _ => P) (written m known) (written m known') :=
  (Dictionary.Alike.pick h m.columns.names).filter (· != m.key)

/-- What is written under a name. -/
theorem get?_written (m : Mapper) (known : String → Option Value) (name : String) :
    (written m known).get? name =
      if name ∈ m.columns.names ∧ name ≠ m.key then known name else none := by
  unfold written
  induction m.columns.names with
  | nil => simp [Dictionary.get?]
  | cons first rest ih =>
    rw [List.filterMap_cons]
    by_cases hname : first = name
    · subst hname
      by_cases hkey : first = m.key
      · cases hknown : known first <;> simp_all
      · cases hknown : known first with
        | none => simp_all
        | some value => simp [hkey, Dictionary.get?]
    · have hne : name ≠ first := Ne.symm hname
      cases hknown : known first with
      | none => simp_all
      | some value =>
        by_cases hkey : first = m.key
        · simp_all
        · simpa [hkey, hname, hne, Dictionary.get?] using ih

/-- What is known of a row after entries were set: what they give, or else what was read. -/
def known (entries : Entries) (row : Row) (name : String) : Option Value :=
  (Entries.lastGiven name entries).or ((Dictionary.ofList row).get? name)

/-! ## 3. One write -/

/-- What changing the row of an entity comes to: it fails before anything is sent, or it is the
change of the columns that are set, and its answer is read from that of the database. -/
theorem update_steps (ref : EntityRef) (u : World) :
    (∃ fault, (update ref).runOn u = (.error fault, u)) ∨
    ∃ m key table, u.mapperOf ref = .ok m ∧ u.keyValue ref = .ok key ∧
      Sql.safeName m.tableName = .ok table ∧
      (Sql.Write.change table (updateData (u.entityAt ref) m).names m.key).WellFormed ∧
      (update ref).runOn u = (query
        ⟨Sql.changeText table (updateData (u.entityAt ref) m).names m.key,
          (updateData (u.entityAt ref) m).map (·.2) ++ [key]⟩ >>=
        fun answer => Action.ofExcept (affected answer)).runOn u := by
  rw [update, Action.runOn_bind]
  rcases hsession : (sessionOf ref).runOn u with ⟨fault | session, u'⟩ <;>
    obtain rfl : u = u' := (sessionOf_kept ref u).symm.trans (congrArg Prod.snd hsession)
  · exact .inl ⟨_, rfl⟩
  dsimp only
  rw [Action.runOn_bind, runOn_reading]
  cases hm : u.mapperOf ref with
  | error fault => exact .inl ⟨_, rfl⟩
  | ok m =>
    dsimp only
    rw [Action.runOn_bind_ok (Action.runOn_get u), Action.runOn_bind, runOn_reading]
    cases hkey : u.keyValue ref with
    | error fault => exact .inl ⟨_, rfl⟩
    | ok key =>
      dsimp only
      rw [Action.runOn_bind, Action.runOn_ofExcept]
      cases hf : Sql.updateRow m.tableName
          (.mapping (Entries.ofNamed (updateData (u.entityAt ref) m))) key (.str m.key) with
      | error fault => exact .inl ⟨_, rfl⟩
      | ok f =>
        obtain ⟨table, htable, -, hwell, rfl⟩ := Sql.updateRow_ofNamed hf
        exact .inr ⟨m, key, table, rfl, rfl, htable, hwell, rfl⟩

/-- What deleting the row of an entity comes to: it fails before anything is sent, or it is the
removal of the row, and its answer is read from that of the database. -/
theorem delete_steps (ref : EntityRef) (u : World) :
    (∃ fault, (delete ref).runOn u = (.error fault, u)) ∨
    ∃ m key table, u.mapperOf ref = .ok m ∧ u.keyValue ref = .ok key ∧
      Sql.safeName m.tableName = .ok table ∧ (Sql.Write.removal table m.key).WellFormed ∧
      (delete ref).runOn u = (do
        let found ← Action.ofExcept
          (affected (← query ⟨Sql.removalText table m.key, [key]⟩))
        if found then setState ref .deleted
        return found : Action World Bool).runOn u := by
  rw [delete, Action.runOn_bind]
  rcases hsession : (sessionOf ref).runOn u with ⟨fault | session, u'⟩ <;>
    obtain rfl : u = u' := (sessionOf_kept ref u).symm.trans (congrArg Prod.snd hsession)
  · exact .inl ⟨_, rfl⟩
  dsimp only
  rw [Action.runOn_bind, runOn_reading]
  cases hm : u.mapperOf ref with
  | error fault => exact .inl ⟨_, rfl⟩
  | ok m =>
    dsimp only
    rw [Action.runOn_bind, runOn_reading]
    cases hkey : u.keyValue ref with
    | error fault => exact .inl ⟨_, rfl⟩
    | ok key =>
      dsimp only
      rw [Action.runOn_bind, Action.runOn_ofExcept]
      cases hf : Sql.deleteRow m.tableName key (.str m.key) with
      | error fault => exact .inl ⟨_, rfl⟩
      | ok f =>
        obtain ⟨table, htable, -, hwell, rfl⟩ := Sql.deleteRow_named hf
        exact .inr ⟨m, key, table, rfl, rfl, htable, hwell, rfl⟩

/-! ## 4. From the row to the write -/

/-- The row with a key was asked for, and it is the first one in the answer. -/
inductive ReadsRow (w : World) (mapper : Mapper) (key : Value) (row : Row) : Exchange → Prop
  | mk {o : FindOptions} {f : Sql.Fragment} {read : Exchange} {rest : List Row}
      (ho : keyOptions mapper key = .ok o) (hf : selection mapper o (some 1) none = .ok f)
      (hcall : read.call = .statement f.text (f.params.map w.expand))
      (hresult : read.result = .ok (.rows (row :: rest))) : ReadsRow w mapper key row read

/-- The call changes the row that was read: every column that is known is set, and the key is the
one that is known. -/
inductive Rewrites (mapper : Mapper) (entries : Entries) (row : Row) : Call → Prop
  | mk {table : String} {values : List Value} {key : Value}
      (htable : Sql.safeName mapper.tableName = .ok table)
      (hwell : (Sql.Write.change table (written mapper (known entries row)).names
        mapper.key).WellFormed)
      (hvalues : List.Forall₂ SentAs ((written mapper (known entries row)).map (·.2)) values)
      (hkey : ∀ k, known entries row mapper.key = some k → SentAs k key) :
      Rewrites mapper entries row (.statement (Sql.changeText table
        (written mapper (known entries row)).names mapper.key) (values ++ [key]))

/-- The call removes the row that was read, by its key. -/
inductive RemovesRow (mapper : Mapper) (row : Row) : Call → Prop
  | mk {table : String} {key : Value} (htable : Sql.safeName mapper.tableName = .ok table)
      (hwell : (Sql.Write.removal table mapper.key).WellFormed)
      (hkey : ∀ k, (Dictionary.ofList row).get? mapper.key = some k → SentAs k key) :
      RemovesRow mapper row (.statement (Sql.removalText table mapper.key) [key])

/-- A row of a model was read by a key from one world to another, and an entity made that carries
it; nothing else was asked of the database, and no class was changed. -/
structure Loads (model : Nat) (mapper : Mapper) (key : Value) (row : Row) (ref : EntityRef)
    (w t : World) : Prop where
  mapper_eq : w.mapper model = .ok mapper
  asked : ∃ read, t.trace = w.trace ++ [read] ∧ ReadsRow w mapper key row read
  inside : ref.id < t.entities.length
  model_eq : (t.entityAt ref).model = (w.registry.classAt model).ref
  carries : Carries ref (Dictionary.ofList row).get? t
  registry_eq : t.registry = w.registry
  shelf_prefix : w.shelf <+: t.shelf

theorem findById_loads {session : String} {model : Nat} {key : Value}
    (h : (findById session model key).runOn w = (.ok (some ref), t)) :
    ∃ mapper row, Loads model mapper key row ref w t := by
  obtain ⟨mapper, o, hmapper, ho, hone⟩ := findById_finds h
  obtain ⟨mapper', f, others, hmapper', hf, hselect⟩ := findOne_selects hone
  cases hmapper.symm.trans hmapper'
  rw [keyOptions_exclude ho] at hselect
  obtain ⟨read, row, rest, u, v, htrace, hcall, hresult, hregistry, hshelf, hmade, hothers⟩ :=
    select_first hselect
  have hinside := (hydrate_hydrated hmade).inside
  have hfound := select_found hselect
  obtain ⟨_, _, _, -, -, hhydrated⟩ := hfound.asked
  refine ⟨mapper, row, hmapper, ⟨read, htrace, .mk ho hf hcall hresult⟩, hhydrated.inside,
    hhydrated.model_eq, ?_, hfound.registry_eq, hfound.shelf_prefix⟩
  exact ((hydrate_carries hmade).congr fun name => if_neg (List.not_mem_nil)).adds hothers hinside

theorem selection_table {o : FindOptions} {limit offset : Option Int} {f : Sql.Fragment}
    (h : selection m o limit offset = .ok f) : ∃ table, Sql.safeName m.tableName = .ok table := by
  obtain ⟨filter, -, h⟩ := bind_eq_ok.mp h
  obtain ⟨quoted, hquoted, -⟩ := bind_eq_ok.mp h
  obtain ⟨table, htable, -⟩ := Sql.quoteIdentifier_eq_ok hquoted
  exact ⟨table, htable⟩

theorem selection_asked {o : FindOptions} {limit offset : Option Int} {f : Sql.Fragment}
    (h : selection m o limit offset = .ok f) (look : Value → Value) :
    Asked .selection (.statement f.text (f.params.map look)) := by
  obtain ⟨part, hpart, h⟩ := bind_eq_ok.mp h
  refine .selection look (fun other hother => ⟨o.valueOf .filter, ?_⟩) h
  cases hother
  exact orFault_eq_ok.mp hpart

/-- The mapper that an entity is written with is the one that its row was read with; the name of its
table was looked up again. -/
theorem mapper_reloaded {model : Nat} (hw : w.Sound) (hregistry : u.registry = w.registry)
    (hshelf : w.shelf <+: u.shelf) (hmodel : (u.entityAt ref).model = (w.registry.classAt model).ref)
    (hmapper : w.mapper model = .ok mapper) (hm : u.mapperOf ref = .ok m) :
    m.columns = mapper.columns ∧ m.key = mapper.key ∧
      ∀ table, Sql.safeName mapper.tableName = .ok table → Sql.safeName m.tableName = .ok table := by
  obtain ⟨m₀, hm₀, hmapper⟩ := bind_eq_ok.mp hmapper
  obtain ⟨m₁, hm₁, hm⟩ := bind_eq_ok.mp hm
  cases hmapper
  cases hm
  rw [hmodel, hregistry, hw.numbered model (lt_of_mapperOf hm₀), hm₀] at hm₁
  cases hm₁
  exact ⟨rfl, rfl, fun table => Shelf.safeName_expand hshelf⟩

/-- What an entity carries under the name of its key is sent as the key. -/
theorem Carries.sentAs_key {key : Value} (h : Carries ref given u) (hm : u.mapperOf ref = .ok m)
    (hkey : u.keyValue ref = .ok key) {k : Value} (hk : given m.key = some k) :
    SentAs k (u.expand key) := by
  obtain ⟨m', hm', hm⟩ := bind_eq_ok.mp hm
  cases hm
  have hcarried := h m'.key
  rw [hk] at hcarried
  cases hheld : Entries.get? (u.entityAt ref).attributes (.str m'.key) <;>
    rw [hheld] at hcarried <;> cases hcarried
  next hkept => exact World.sentAs_key hm' ⟨_, hheld, hkept⟩ hkey

section Loaded

variable {model : Nat} {key : Value} {row : Row}

/-- From one world to another an entity of a model was made that carries a row, and no class was
changed. -/
structure Brought (model : Nat) (mapper : Mapper) (row : Row) (ref : EntityRef) (w t : World) :
    Prop where
  mapper_eq : w.mapper model = .ok mapper
  named : ∃ table, Sql.safeName mapper.tableName = .ok table
  inside : ref.id < t.entities.length
  model_eq : (t.entityAt ref).model = (w.registry.classAt model).ref
  carries : Carries ref (Dictionary.ofList row).get? t
  registry_eq : t.registry = w.registry
  shelf_prefix : w.shelf <+: t.shelf

theorem Loads.brought (h : Loads model mapper key row ref w t) :
    Brought model mapper row ref w t := by
  obtain ⟨read, -, hread⟩ := h.asked
  obtain ⟨-, hf, -, -⟩ := hread
  exact ⟨h.mapper_eq, selection_table hf, h.inside, h.model_eq, h.carries, h.registry_eq,
    h.shelf_prefix⟩

/-- Changing the entity of a row after entries were set on it sends nothing, or one change of the
row. -/
theorem Brought.update {entries : Entries} (h : Brought model mapper row ref w t) (hw : w.Sound)
    (hset : (setEntries ref entries).runOn t = (.ok (), u)) :
    (∃ fault, (World.update ref).runOn u = (.error fault, u)) ∨ ∃ f : Sql.Fragment,
      Rewrites mapper entries row (.statement f.text (f.params.map u.expand)) ∧
      (World.update ref).runOn u =
        (query f >>= fun answer => Action.ofExcept (affected answer)).runOn u := by
  have halters := (setEntries_alters ref entries).of_run hset
  have hcarries : Carries ref (known entries row) u := setEntries_carries hset h.inside h.carries
  have hshelf : t.shelf <+: u.shelf := by
    obtain ⟨-, shelf, rfl, hshelf, -⟩ := halters
    exact hshelf
  refine (update_steps ref u).imp_right ?_
  rintro ⟨m, k, table, hm, hk, htable, hwell, hrun⟩
  obtain ⟨hcolumns, hkey, hname⟩ := mapper_reloaded hw (halters.registry_eq.trans h.registry_eq)
    (h.shelf_prefix.trans hshelf) ((halters.model_eq h.inside).trans h.model_eq) h.mapper_eq hm
  obtain ⟨table', htable'⟩ := h.named
  cases htable.symm.trans (hname _ htable')
  -- the columns that are set on the entity are those that are known
  have hwritten : written m = written mapper := by
    funext known
    rw [written, written, hcolumns, hkey]
  have halike : Dictionary.Alike (fun _ => Shelf.Kept u.shelf) (written mapper (known entries row))
      (updateData (u.entityAt ref) m) := hwritten ▸ written_alike hcarries
  have hvalues : List.Forall₂ SentAs ((written mapper (known entries row)).map (·.2))
      (((updateData (u.entityAt ref) m).map (·.2)).map u.expand) := by
    rw [List.map_map, List.forall₂_map_left_iff, List.forall₂_map_right_iff]
    exact List.Forall₂.imp (fun _ _ hentry => sentAs_of_kept hentry.2) halike
  rw [← halike.names_eq, hkey] at hwell hrun
  refine ⟨_, ?_, hrun⟩
  rw [List.map_append]
  exact .mk htable' hwell hvalues fun v hv => hcarries.sentAs_key hm hk (hkey ▸ hv)

/-- Changing the entity of a row sends nothing, and then it has no answer, or it sends one change of
the row. -/
theorem Brought.rewrites {entries : Entries} (h : Brought model mapper row ref w t) (hw : w.Sound)
    (hset : (setEntries ref entries).runOn t = (.ok (), u)) :
    (((World.update ref).runOn u).2.trace = u.trace ∧
      ∀ found, ((World.update ref).runOn u).1 ≠ .ok found) ∨
    ∃ write : Exchange, ((World.update ref).runOn u).2.trace = u.trace ++ [write] ∧
      Rewrites mapper entries row write.call := by
  rcases h.update hw hset with ⟨fault, hfail⟩ | ⟨f, hf, hrun⟩
  · rw [hfail]
    exact .inl ⟨rfl, nofun⟩
  have htrace : ((World.update ref).runOn u).2.trace = ((query f).runOn u).2.trace := by
    rw [hrun, Action.runOn_bind]
    rcases (query f).runOn u with ⟨fault | answer, v⟩
    · rfl
    · exact congrArg World.trace (congrArg Prod.snd (Action.runOn_ofExcept _ v))
  rcases query_sent f u with hnone | ⟨write, hwrite, hcall⟩
  · refine .inl ⟨htrace.trans hnone, fun found hfound => ?_⟩
    obtain ⟨answer, v, hquery, -⟩ :=
      Action.runOn_bind_eq_ok.mp (hrun.symm.trans (Prod.ext hfound rfl))
    obtain ⟨x, hsent, -⟩ := query_exchanged hquery
    rw [hquery] at hnone
    simpa using hnone.symm.trans hsent
  · exact .inr ⟨write, htrace.trans hwrite, hcall ▸ hf⟩

/-- Deleting the entity of a row sends nothing, or one removal of the row. -/
theorem Loads.delete (h : Loads model mapper key row ref w t) (hw : w.Sound) :
    (∃ fault, (World.delete ref).runOn t = (.error fault, t)) ∨ ∃ f : Sql.Fragment,
      RemovesRow mapper row (.statement f.text (f.params.map t.expand)) ∧
      (World.delete ref).runOn t = (do
        let found ← Action.ofExcept (affected (← query f))
        if found then setState ref .deleted
        return found : Action World Bool).runOn t := by
  refine (delete_steps ref t).imp_right ?_
  rintro ⟨m, k, table, hm, hk, htable, hwell, hrun⟩
  obtain ⟨-, hkey, hname⟩ :=
    mapper_reloaded hw h.registry_eq h.shelf_prefix h.model_eq h.mapper_eq hm
  obtain ⟨read, -, hread⟩ := h.asked
  obtain ⟨-, hf, -, -⟩ := hread
  obtain ⟨table', htable'⟩ := selection_table hf
  cases htable.symm.trans (hname _ htable')
  rw [hkey] at hwell hrun
  exact ⟨_, .mk htable' hwell fun v hv => h.carries.sentAs_key hm hk (hkey ▸ hv), hrun⟩

end Loaded

/-! ## 5. The finders that write by a key -/

/-- An answer that counts rows says whether there was one. -/
def Counts (x : Exchange) (found : Bool) : Prop :=
  ∃ insertId count, x.result = .ok (.done insertId count) ∧ isPositive count = .ok found

/-- A row of a model was read by a key, and then something was written for it. -/
inductive ReadsThenWrites (w : World) (model : Nat) (key : Value)
    (P : Mapper → Row → Exchange → Prop) : List Exchange → Prop
  | mk {mapper : Mapper} {row : Row} {read write : Exchange} (hmapper : w.mapper model = .ok mapper)
      (hread : ReadsRow w mapper key row read) (hwrite : P mapper row write) :
      ReadsThenWrites w model key P [read, write]

theorem affected_counts {f : Sql.Fragment} {found : Bool}
    (h : (query f >>= fun answer => Action.ofExcept (affected answer)).runOn u = (.ok found, w')) :
    ∃ x : Exchange, w'.trace = u.trace ++ [x] ∧
      x.call = .statement f.text (f.params.map u.expand) ∧ Counts x found := by
  obtain ⟨answer, t, hquery, h⟩ := Action.runOn_bind_eq_ok.mp h
  obtain ⟨haffected, rfl⟩ := ofExcept_eq_ok.mp h
  obtain ⟨x, htrace, hcall, hresult⟩ := query_exchanged hquery
  cases answer with
  | rows rows => cases haffected
  | done insertId count => exact ⟨x, htrace, hcall, insertId, count, hresult, haffected⟩

section Finders

variable {session : String} {model : Nat} {key data : Value} {entries : Entries} {place : Option Nat}

/-- Setting what a mapping holds sets its entries. -/
theorem setProperties_look (hdata : w.look data = .mappingAt entries place)
    (hshelf : w.shelf <+: t.shelf) :
    (setProperties ref data).runOn t = (setEntries ref entries).runOn t := by
  rw [setProperties, Action.runOn_bind_ok (Action.runOn_get t), look_mapping hdata hshelf]

/-- Changing a row by its key sends nothing but selections, or the row is read and then changed in
every column that is known. -/
theorem findByIdAndUpdate_rewrites (hw : w.Sound) (hdata : w.look data = .mappingAt entries place) :
    Leads [.selection] w ((findByIdAndUpdate session model key data).runOn w).2 ∨
    ∃ sent, ((findByIdAndUpdate session model key data).runOn w).2.trace = w.trace ++ sent ∧
      ReadsThenWrites w model key
        (fun mapper row write => Rewrites mapper entries row write.call) sent := by
  have hled := findById_sends session model key w
  rw [findByIdAndUpdate, Action.runOn_bind]
  rcases hfind : (findById session model key).runOn w with ⟨fault | _ | ref, t⟩ <;>
    rw [hfind] at hled
  · exact .inl hled
  · exact .inl hled
  obtain ⟨mapper, row, hloads⟩ := findById_loads hfind
  dsimp only
  rw [Action.runOn_bind, setProperties_look hdata hloads.shelf_prefix]
  have hset_led : Leads [] t ((setEntries ref entries).runOn t).2 := setEntries_sends ref entries t
  rcases hset : (setEntries ref entries).runOn t with ⟨fault | _, u⟩ <;> rw [hset] at hset_led
  · exact .inl (trans_of (Leads [.selection]) hled (hset_led.mono (by simp)))
  dsimp only
  rw [Action.after_bind_pure]
  obtain ⟨read, hread_trace, hread⟩ := hloads.asked
  rcases hloads.brought.rewrites hw hset with ⟨hnone, -⟩ | ⟨write, hwrite, hrewrites⟩
  · refine .inl ⟨?_, fun hsound =>
      (update_sends ref u).sound (hset_led.sound (hled.sound hsound))⟩
    rw [hnone, hset_led.trace_eq]
    exact hled.calls
  · refine .inr ⟨[read, write], ?_, .mk hloads.mapper_eq hread hrewrites⟩
    rw [hwrite, hset_led.trace_eq, hread_trace, List.append_assoc]
    rfl

/-- A row that was changed by its key was read, and the change was counted. -/
theorem findByIdAndUpdate_exchanged (hw : w.Sound) (hdata : w.look data = .mappingAt entries place)
    (hrun : (findByIdAndUpdate session model key data).runOn w = (.ok (some ref), w')) :
    ∃ sent found, w'.trace = w.trace ++ sent ∧ ReadsThenWrites w model key
      (fun mapper row write => Rewrites mapper entries row write.call ∧ Counts write found)
      sent := by
  obtain ⟨found, t, hfind, hrun⟩ := Action.runOn_bind_eq_ok.mp hrun
  cases found with
  | none => cases hrun
  | some found =>
    obtain ⟨mapper, row, hloads⟩ := findById_loads hfind
    obtain ⟨_, u, hset, hrun⟩ := Action.runOn_bind_eq_ok.mp hrun
    rw [setProperties_look hdata hloads.shelf_prefix] at hset
    obtain ⟨counted, v, hupdate, hrun⟩ := Action.runOn_bind_eq_ok.mp hrun
    cases hrun
    obtain ⟨read, hread_trace, hread⟩ := hloads.asked
    have hset_led : Leads [] t u := (setEntries_sends ref entries).of_run hset
    rcases hloads.brought.update hw hset with ⟨fault, hfail⟩ | ⟨f, hf, hsteps⟩
    · cases hfail.symm.trans hupdate
    · rw [hsteps] at hupdate
      obtain ⟨write, htrace, hcall, hcounts⟩ := affected_counts hupdate
      refine ⟨[read, write], counted, ?_, .mk hloads.mapper_eq hread ⟨hcall ▸ hf, hcounts⟩⟩
      rw [htrace, hset_led.trace_eq, hread_trace, List.append_assoc]
      rfl

/-- A row that was deleted by its key was read, and the removal was counted. -/
theorem findByIdAndDelete_exchanged (hw : w.Sound) {found : Bool}
    (hrun : (findByIdAndDelete session model key).runOn w = (.ok found, w')) :
    ∃ sent, w'.trace = w.trace ++ sent ∧ ReadsThenWrites w model key
      (fun mapper row write => RemovesRow mapper row write.call ∧ Counts write found) sent := by
  obtain ⟨m, _, hm, hrun⟩ := Action.runOn_bind_eq_ok.mp hrun
  obtain ⟨-, rfl⟩ := reading_eq_ok.mp hm
  obtain ⟨ref, t, hfind, hrun⟩ := Action.runOn_bind_eq_ok.mp hrun
  cases ref with
  | none =>
    obtain ⟨_, _, -, hrun⟩ := Action.runOn_bind_eq_ok.mp hrun
    cases hrun
  | some ref =>
    obtain ⟨mapper, row, hloads⟩ := findById_loads hfind
    obtain ⟨read, hread_trace, hread⟩ := hloads.asked
    replace hrun : (delete ref).runOn t = (.ok found, w') := hrun
    rcases hloads.delete hw with ⟨fault, hfail⟩ | ⟨f, hf, hsteps⟩
    · cases hfail.symm.trans hrun
    · rw [hrun, ← bind_assoc] at hsteps
      obtain ⟨counted, v, hcounted, hrest⟩ := Action.runOn_bind_eq_ok.mp hsteps.symm
      obtain ⟨write, htrace, hcall, hcounts⟩ := affected_counts hcounted
      have hanswer : found = counted ∧ w'.trace = v.trace := by
        cases counted with
        | false =>
          cases hrest
          exact ⟨rfl, rfl⟩
        | true =>
          obtain ⟨_, v', hstate, hrest⟩ := Action.runOn_bind_eq_ok.mp hrest
          cases hrest
          have hled : Leads [] v w' := (setState_sends ref _).of_run hstate
          exact ⟨rfl, hled.trace_eq⟩
      obtain ⟨rfl, hafter⟩ := hanswer
      refine ⟨[read, write], ?_, .mk hloads.mapper_eq hread ⟨hcall ▸ hf, hcounts⟩⟩
      rw [hafter, htrace, hread_trace, List.append_assoc]
      rfl

end Finders

/-! ## 6. The row after the write -/

/-- What becomes of a row when the row that was read is written back over it: what is given is
written, what was read in the other columns comes back, and the rest stays. -/
structure Overwritten (mapper : Mapper) (entries : Entries) (read before after : Row) : Prop where
  names_eq : after.names = before.names
  given : ∀ name v, name ∈ before.names → name ∈ mapper.columns.names → name ≠ mapper.key →
    Entries.lastGiven name entries = some v → ∃ sent, SentAs v sent ∧ after.get? name = some sent
  reverted : ∀ name v, name ∈ before.names → name ∈ mapper.columns.names → name ≠ mapper.key →
    Entries.lastGiven name entries = none → (Dictionary.ofList read).get? name = some v →
    ∃ sent, SentAs v sent ∧ after.get? name = some sent
  kept : ∀ name, name ∉ mapper.columns.names ∨ name = mapper.key ∨
    known entries read name = none → after.get? name = before.get? name

theorem alike_zip {P : Value → Value → Prop} {d : Dictionary Value} {values : List Value}
    (h : List.Forall₂ P (d.map (·.2)) values) :
    Dictionary.Alike (fun _ => P) d (d.names.zip values) := by
  induction d generalizing values with
  | nil => exact .nil
  | cons entry rest ih =>
    cases h with
    | cons hvalue hrest => exact (ih hrest).cons hvalue

theorem overwritten_of_forall₂ {entries : Entries} {read : Row} {values : List Value}
    (hvalues : List.Forall₂ SentAs ((written mapper (known entries read)).map (·.2)) values)
    (before : Row) : Overwritten mapper entries read before
      (Sql.assign ((written mapper (known entries read)).names.zip values) before) := by
  have halike := alike_zip hvalues
  -- a column that is known is written with what it is known to be
  have hwritten (name : String) (v : Value) (hbefore : name ∈ before.names)
      (hcolumn : name ∈ mapper.columns.names) (hkey : name ≠ mapper.key)
      (hknown : known entries read name = some v) : ∃ sent, SentAs v sent ∧
        (Sql.assign ((written mapper (known entries read)).names.zip values) before).get? name =
          some sent := by
    have hrel := halike.get? name
    rw [get?_written, if_pos ⟨hcolumn, hkey⟩, hknown] at hrel
    obtain ⟨old, hold⟩ :=
      Option.ne_none_iff_exists'.mp (Dictionary.get?_ne_none_of_mem hbefore)
    rw [Sql.get?_assign, hold]
    cases hsetting : Dictionary.get? ((written mapper (known entries read)).names.zip values) name
      <;> rw [hsetting] at hrel <;> cases hrel
    next sent hsent => exact ⟨sent, hsent, rfl⟩
  refine ⟨Sql.names_assign _ _, ?_, ?_, ?_⟩
  · intro name v hbefore hcolumn hkey hgiven
    exact hwritten name v hbefore hcolumn hkey (by rw [known, hgiven, Option.some_or])
  · intro name v hbefore hcolumn hkey hnone hread
    exact hwritten name v hbefore hcolumn hkey (by rw [known, hnone, Option.none_or, hread])
  · intro name hother
    have hrel := halike.get? name
    have hnone : (written mapper (known entries read)).get? name = none := by
      rw [get?_written]
      split
      · next h =>
        rcases hother with hcolumn | hkey | hunknown
        · exact absurd h.1 hcolumn
        · exact absurd hkey h.2
        · exact hunknown
      · rfl
    rw [hnone] at hrel
    rw [Sql.get?_assign]
    cases hsetting : Dictionary.get? ((written mapper (known entries read)).names.zip values) name
      <;> rw [hsetting] at hrel <;> cases hrel
    simp

/-- The call that changes a row that was read sets columns to values, and a row to which it is
applied is overwritten. -/
theorem Rewrites.overwrites {entries : Entries} {read : Row} {call : Call}
    (h : Rewrites mapper entries read call) : ∃ text table columns values key,
      call = .statement text (values ++ [key]) ∧ Sql.safeName mapper.tableName = .ok table ∧
      Sql.Write.read? text = some (.change table columns mapper.key) ∧
      columns = (written mapper (known entries read)).names ∧
      (∀ k, known entries read mapper.key = some k → SentAs k key) ∧
      ∀ before, Overwritten mapper entries read before
        (Sql.assign (columns.zip values) before) := by
  cases h with
  | @mk table values key htable hwell hvalues hkey =>
    have hread := Sql.Write.read?_text hwell
    rw [Sql.Write.text] at hread
    exact ⟨_, table, (written mapper (known entries read)).names, values, key, rfl, htable, hread,
      rfl, hkey, overwritten_of_forall₂ hvalues⟩

/-- A row of a model was read, and then columns of a row were set: whatever row it is, it is
overwritten with what was read and what is given. -/
inductive WritesOver (w : World) (model : Nat) (entries : Entries) : List Exchange → Prop
  | mk {mapper : Mapper} {read write : Exchange} {row : Row} {rest : List Row} {text table : String}
      {columns : List String} {values : List Value} {key : Value}
      (hmapper : w.mapper model = .ok mapper) (hread : Asked .selection read.call)
      (hrow : read.result = .ok (.rows (row :: rest)))
      (hcall : write.call = .statement text (values ++ [key]))
      (htable : Sql.safeName mapper.tableName = .ok table)
      (htext : Sql.Write.read? text = some (.change table columns mapper.key))
      (hover : ∀ before, Overwritten mapper entries row before
        (Sql.assign (columns.zip values) before)) :
      WritesOver w model entries [read, write]

theorem ReadsThenWrites.writesOver {model : Nat} {key : Value} {entries : Entries}
    {sent : List Exchange} (h : ReadsThenWrites w model key
      (fun mapper row write => Rewrites mapper entries row write.call) sent) :
    WritesOver w model entries sent := by
  cases h with
  | mk hmapper hread hwrite =>
    obtain ⟨text, table, columns, values, key, hcall, htable, htext, -, -, hover⟩ :=
      hwrite.overwrites
    cases hread with
    | mk ho hf hreadCall hresult =>
      refine .mk hmapper ?_ hresult hcall htable htext hover
      rw [hreadCall]
      exact selection_asked hf _

end World
end RowMapper
