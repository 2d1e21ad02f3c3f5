import RowMapper.Proofs.Engine.Report
import RowMapper.Proofs.Entity.Fresh
import RowMapper.Proofs.Entity.Table
import RowMapper.Proofs.Where.Acceptance

/-!
# Insertions that go well

A new entity of properties that can all be set is made, bound and saved without failing, as far as
its insertion (`create_ready`): a class of which rows can be inserted says so by `Insertable`, and
`Ready` is what the entity is until then.  What was given to it is in the data of the insertion.
After the insertion was done, only a record that is wanted and cannot be printed can fail
(`afterInsertion_ok`, `debug_ends`).
-/
namespace RowMapper.World

open Model (Mapper Registry)

variable {w t u : World} {session : String} {model : Nat} {m : Mapper} {ref : EntityRef}

/-! ## 1. An entity that is made ready to be inserted -/

/-- A name that no property of a class has, so that it can be set. -/
def Open (r : Registry) (model : Nat) (name : String) : Prop :=
  ∀ p, r.attribute? model name ≠ some (.property p)

/-- Only entities and the shelf are touched. -/
structure Aside (w w' : World) : Prop where
  engine_eq : w'.engine = w.engine
  registry_eq : w'.registry = w.registry
  shelf_prefix : w.shelf <+: w'.shelf

theorem Aside.trans (h : Aside w t) (h' : Aside t u) : Aside w u :=
  ⟨h'.engine_eq.trans h.engine_eq, h'.registry_eq.trans h.registry_eq,
    h.shelf_prefix.trans h'.shelf_prefix⟩

theorem Alters.aside (h : Alters ref w t) : Aside w t := by
  obtain ⟨e, shelf, rfl, hshelf, -⟩ := h
  exact ⟨rfl, rfl, hshelf⟩

theorem Adds.aside (h : Adds w t) : Aside w t := by
  obtain ⟨made, shelf, rfl, hshelf⟩ := h
  exact ⟨rfl, rfl, hshelf⟩

/-- An entity of a model, bound or not, holds what is given. -/
structure Ready (session : Option String) (model : Nat) (given : String → Value → Prop)
    (ref : EntityRef) (w : World) : Prop where
  inside : ref.id < w.entities.length
  model_eq : (w.entityAt ref).model.id = model
  session_eq : (w.entityAt ref).session = session
  holds : ∀ name v, given name v → Holds ref name v w

variable {given : String → Value → Prop} {bound : Option String}

/-- The session of an entity stays. -/
def KeepsSession (ref : EntityRef) (w w' : World) : Prop :=
  (w'.entityAt ref).session = (w.entityAt ref).session

instance (ref : EntityRef) : IsPreorder World (KeepsSession ref) where
  refl _ := rfl
  trans _ _ _ h h' := Eq.trans h' h

theorem updateEntity_keepsSession {change : Entity → Entity}
    (h : ∀ e, (change e).session = e.session) :
    (updateEntity ref change).Obeys (KeepsSession ref) := by
  intro w
  rw [KeepsSession, updateEntity_entityAt]
  split
  · exact h _
  · rfl

theorem holdAttribute_keepsSession (name value : Value) :
    (holdAttribute ref name value).Obeys (KeepsSession ref) :=
  .bind (fun _ => rfl) fun _ => updateEntity_keepsSession fun _ => rfl

theorem setEntries_keepsSession (entries : Entries) :
    (setEntries ref entries).Obeys (KeepsSession ref) := by
  induction entries with
  | nil => exact .pure _
  | cons entry rest ih =>
    obtain ⟨name, value⟩ := entry
    rw [setEntries]
    cases name.text? with
    | some name =>
      exact .bind (.bind .get fun _ => .guarded fun _ => holdAttribute_keepsSession _ value)
        fun _ => ih
    | none => exact .throw _

/-- An entity of properties that can be set is made, and holds them. -/
theorem make_ready (hmodel : (w.registry.classAt model).ref.id = model)
    {properties : Dictionary Value}
    (hopen : ∀ name ∈ properties.names, Open w.registry model name) :
    ∃ ref t, (make model properties).runOn w = (.ok ref, t) ∧ Aside w t ∧
      Ready none model (fun name v => Entries.lastGiven name (Entries.ofNamed properties) = some v)
        ref t := by
  let ref : EntityRef := ⟨w.entities.length, (w.registry.classAt model).ref.name⟩
  let added : World := { w with
    entities := w.entities ++ [{ model := (w.registry.classAt model).ref }] }
  have hin : ref.id < added.entities.length := by simp [ref, added]
  have hentity : added.entityAt ref = { model := (w.registry.classAt model).ref } := by
    simp [ref, added, entityAt]
  have hnew : Mirrors [] ref added := ⟨[], by rw [hentity]; exact List.map_nil.symm, .nil⟩
  have hfree (name : String) (hname : name ∈ properties.names) :
      added.property? ref name = none := by
    rw [property?, hentity, hmodel]
    split
    · next p hproperty => exact absurd hproperty (hopen name hname p)
    · rfl
  obtain ⟨t, hset, -⟩ := setEntries_mirrors hin hnew hfree
  have halters : Alters ref added t := (setEntries_alters ref _).of_run hset
  have hadded : Aside w added := ⟨rfl, rfl, List.prefix_rfl⟩
  refine ⟨ref, t, ?_, hadded.trans halters.aside, halters.inside hin, ?_, ?_,
    fun name v hlast => setEntries_holds hset hin (.inl hlast)⟩
  · rw [make, Action.runOn_bind_ok (Action.runOn_get w),
      Action.runOn_bind_ok (addEntity_runOn _ w), Action.runOn_bind_ok hset]
    rfl
  · rw [halters.model_eq hin, hentity, hmodel]
  · have hkept : KeepsSession ref added t := (setEntries_keepsSession _).of_run hset
    rw [hkept, hentity]

theorem Ready.alters (h : Ready bound model given ref w) {session : Option String}
    (halters : Alters ref w t) (hsession : (t.entityAt ref).session = session)
    (hholds : ∀ name v, given name v → Holds ref name v t) : Ready session model given ref t :=
  ⟨halters.inside h.inside, halters.model_eq h.inside ▸ h.model_eq, hsession, hholds⟩

/-- Binding a new entity to a session changes nothing else. -/
theorem bindTo_ready (h : Ready none model given ref w) (session : String) :
    ∃ t, (bindTo session ref).runOn w = (.ok (), t) ∧ Aside w t ∧
      Ready (some session) model given ref t := by
  let change (e : Entity) : Entity := { e with session := some session }
  have hrun : (bindTo session ref).runOn w = (updateEntity ref change).runOn w := by
    rw [bindTo, Action.runOn_bind_ok (Action.runOn_get w), h.session_eq]
    rfl
  have hmodel : ∀ e, (change e).model = e.model := fun _ => rfl
  have halters : Alters ref w ((updateEntity ref change).runOn w).2 := updateEntity_alters hmodel w
  refine ⟨((updateEntity ref change).runOn w).2, hrun, halters.aside,
    h.alters halters ?_ fun name v hgiven =>
      (h.holds name v hgiven).updateEntity h.inside fun _ => rfl⟩
  rw [updateEntity_entityAt, if_pos ⟨rfl, h.inside⟩]

theorem defaultValue_adds (absent : Model.Default) : (defaultValue absent).Obeys Adds := by
  have hmake (model : Nat) : (make model []).Obeys Adds :=
    .bind .get fun _ => addEntity_bind_adds _ fun ref =>
      .bind (setEntries_alters ref _) fun _ => .pure ref
  have hinstantiate (model : Nat) : (instantiate model []).Obeys Adds :=
    .bind .get fun _ => .ite (.bind (hmake model) fun _ => .pure _) (.guarded fun _ => .pure _)
  rw [defaultValue.eq_def]
  split
  · exact hinstantiate _
  · exact .pure _
  · exact fun w => refl_of Adds w

theorem Ready.adds (h : Ready bound model given ref w) (hadds : Adds w t) :
    Ready bound model given ref t := by
  have hentity := hadds.entityAt_eq h.inside
  exact ⟨Nat.lt_of_lt_of_le h.inside hadds.length_le, hentity ▸ h.model_eq,
    hentity ▸ h.session_eq, fun name v hgiven => (h.holds name v hgiven).adds hadds h.inside⟩

/-- Holding something under a name that is not given. -/
theorem holdAttribute_ready (h : Ready bound model given ref w) {name : String} (value : Value)
    (hname : ∀ v, ¬given name v) :
    ∃ t, (holdAttribute ref (.str name) value).runOn w = (.ok (), t) ∧ Aside w t ∧
      Ready bound model given ref t := by
  have halters : Alters ref w ((holdAttribute ref (.str name) value).runOn w).2 :=
    holdAttribute_alters _ value w
  have hsession : KeepsSession ref w ((holdAttribute ref (.str name) value).runOn w).2 :=
    holdAttribute_keepsSession _ value w
  refine ⟨_, rfl, halters.aside, h.alters halters (hsession.trans h.session_eq) ?_⟩
  intro other v hgiven
  obtain ⟨held, hget, hkept⟩ := h.holds other v hgiven
  have hne : name ≠ other := by
    rintro rfl
    exact hname v hgiven
  refine ⟨held, ?_, hkept.mono halters.aside.shelf_prefix⟩
  show Entries.get? (World.entityAt _ ref).attributes (.str other) = _
  rw [entityAt_set h.inside]
  exact (Entries.get?_insert _ name other _).trans ((if_neg hne).trans hget)

/-- What stands for a column that is not set can always be made. -/
def Makes (r : Registry) (columns : List (String × Model.Column)) : Prop :=
  ∀ entry ∈ columns, ∀ absent, entry.2.absent = some absent → ∀ u : World, u.registry = r →
    ∃ v t, (defaultValue absent).runOn u = (.ok v, t)

/-- Data for some columns convey a value under a name: whatever they have there came of the value,
and they do have something there if it is one of the columns, but for a key that is null. -/
structure Conveys (s : Shelf) (key : String) (columns : List String) (data : Dictionary Value)
    (name : String) (v : Value) : Prop where
  kept : ∀ held, (name, held) ∈ data → s.Kept v held
  there : name ∈ columns → (name = key → v.isNull = false) → name ∈ data.names

section Conveyed

variable {s : Shelf} {key name other : String} {columns : List String} {data : Dictionary Value}
  {v : Value}

/-- A column that is left out. -/
theorem Conveys.skip (h : Conveys s key columns data other v) (hne : other ≠ name) :
    Conveys s key (name :: columns) data other v :=
  ⟨h.kept, fun hname => h.there ((List.mem_cons.mp hname).resolve_left hne)⟩

/-- Another column. -/
theorem Conveys.cons_other (h : Conveys s key columns data other v) (hne : other ≠ name)
    (value : Value) : Conveys s key (name :: columns) ((name, value) :: data) other v where
  kept held hheld := by
    rcases List.mem_cons.mp hheld with heq | hheld
    · exact absurd (congrArg Prod.fst heq) hne
    · exact h.kept held hheld
  there hname hnull := List.mem_cons_of_mem _ ((h.skip hne).there hname hnull)

/-- The column of the name itself, which is left out as a key that is null. -/
theorem Conveys.cons_self {value : Value} (h : Conveys s key columns data name v)
    (hvalue : s.Kept v value) : Conveys s key (name :: columns)
      (if name = key && value.isNull then data else (name, value) :: data) name v where
  kept held hheld := by
    split at hheld
    · exact h.kept held hheld
    · rcases List.mem_cons.mp hheld with heq | hheld
      · cases heq
        exact hvalue
      · exact h.kept held hheld
  there _ hnull := by
    have hnot : ¬(decide (name = key) && value.isNull) = true := by
      rw [Bool.and_eq_true, decide_eq_true_eq]
      rintro ⟨hkey, hnone⟩
      rw [hvalue.isNull_eq, hnull hkey] at hnone
      cases hnone
    rw [if_neg hnot]
    exact List.mem_cons_self

end Conveyed

/-- The data of an insertion carry what is given. -/
theorem insertData_ready {key : String} {columns : List (String × Model.Column)}
    (hmakes : Makes w.registry columns) (h : Ready bound model given ref w) :
    ∃ data t, (insertData ref key columns).runOn w = (.ok data, t) ∧ Aside w t ∧
      Ready bound model given ref t ∧ ∀ name v, given name v →
        Conveys t.shelf key (columns.map (·.1)) data name v := by
  induction columns generalizing w with
  | nil => exact ⟨[], w, rfl, ⟨rfl, rfl, List.prefix_rfl⟩, h, fun _ _ _ => ⟨by simp, by simp⟩⟩
  | cons entry rest ih =>
    obtain ⟨name, column⟩ := entry
    obtain ⟨hcolumn, hrest⟩ := List.forall_mem_cons.mp hmakes
    -- a name that is given is set, so that no default is taken for it
    have hset {other : String} {v : Value} (hgiven : given other v)
        (hnone : Entries.get? (w.entityAt ref).attributes (.str name) = none) : other ≠ name := by
      rintro rfl
      obtain ⟨held, hget, -⟩ := h.holds other v hgiven
      cases hget.symm.trans hnone
    rw [insertData, Action.runOn_bind_ok (Action.runOn_get w)]
    split
    · next value hvalue =>
      obtain ⟨others, t, hothers, haside, hready, hconveys⟩ := ih hrest h
      refine ⟨if name = key && value.isNull then others else (name, value) :: others, t,
        by rw [Action.runOn_bind_ok hothers]; rfl, haside, hready, fun other v hgiven => ?_⟩
      have hother := hconveys other v hgiven
      by_cases hname : other = name
      · subst hname
        obtain ⟨held, hget, hheld⟩ := h.holds other v hgiven
        cases hvalue.symm.trans hget
        exact hother.cons_self (hheld.mono haside.shelf_prefix)
      · split
        · exact hother.skip hname
        · exact hother.cons_other hname value
    · next absent hnone habsent =>
      obtain ⟨value, u, hvalue⟩ := hcolumn absent habsent w rfl
      have hadds := (defaultValue_adds absent).of_run hvalue
      have hgiven (v : Value) : ¬given name v := fun hgiven => hset hgiven hnone rfl
      obtain ⟨u', hheld, haside, hready⟩ := holdAttribute_ready (h.adds hadds) value hgiven
      have haside := hadds.aside.trans haside
      obtain ⟨others, t, hothers, haside', hready', hconveys⟩ :=
        ih (haside.registry_eq ▸ hrest) hready
      refine ⟨(name, value) :: others, t, ?_, haside.trans haside', hready', fun other v hother =>
        (hconveys other v hother).cons_other (hset hother hnone) value⟩
      rw [Action.runOn_bind_ok hvalue, Action.runOn_bind_ok hheld, Action.runOn_bind_ok hothers]
      rfl
    · next hnone _ =>
      obtain ⟨data, t, hrun, haside, hready, hconveys⟩ := ih hrest h
      exact ⟨data, t, hrun, haside, hready, fun other v hgiven =>
        (hconveys other v hgiven).skip (hset hgiven hnone)⟩

/-! ## 2. The insertion -/

/-- Rows can be inserted for a model: its table and its columns can be named, nothing hides its key,
and what stands for a column that is not set can always be made. -/
structure Insertable (w : World) (model : Nat) (m : Mapper) (table : String) : Prop where
  mapper_eq : w.mapper model = .ok m
  keyed : m.Keyed
  table_eq : Sql.safeName m.tableName = .ok table
  safe : ∀ name ∈ m.columns.names, Sql.isSafeName name.toList = true
  key : ∃ index, w.registry.attribute? model m.key = some (.column index)
  makes : Makes w.registry (w.registry.columnsOf m)

theorem Insertable.later {table : String} (h : Insertable w model m table)
    (hregistry : t.registry = w.registry) (hshelf : w.shelf <+: t.shelf) :
    ∃ m', Insertable t model m' table ∧ m'.columns = m.columns ∧ m'.key = m.key := by
  obtain ⟨m', hm', htable, hcolumns, hkey⟩ :=
    mapper_later h.mapper_eq (.of_registry hregistry) hshelf h.table_eq
  have hsame : t.registry.columnsOf m' = w.registry.columnsOf m := by
    rw [Registry.columnsOf, Registry.columnsOf, hcolumns, hregistry]
  refine ⟨m', ⟨hm', ⟨hcolumns ▸ h.keyed.nodup, hcolumns ▸ hkey ▸ h.keyed.key_mem⟩, htable,
    hcolumns ▸ h.safe, ?_, ?_⟩, hcolumns, hkey⟩
  · rw [hkey, hregistry]
    exact h.key
  · rw [hsame, hregistry]
    exact h.makes

theorem quoteAll_of_safe {data : Dictionary Value}
    (h : ∀ name ∈ data.names, Sql.isSafeName name.toList = true) :
    ∃ texts, Sql.quoteAll ((Entries.ofNamed data).map (·.1)) = .ok texts := by
  induction data with
  | nil => exact ⟨[], rfl⟩
  | cons entry rest ih =>
    obtain ⟨hname, hrest⟩ := List.forall_mem_cons.mp h
    obtain ⟨texts, htexts⟩ := ih hrest
    obtain ⟨name, value⟩ := entry
    dsimp only at hname
    have hsafe : Sql.safeName (.str name) = .ok name := by
      refine Where.safeName_eq_ok.mpr ⟨?_, hname, rfl⟩
      cases hempty : name.isEmpty with
      | true =>
        rw [String.isEmpty_iff.mp hempty] at hname
        cases hname
      | false => simp [Value.truthy, hempty]
    refine ⟨Sql.quote name :: texts, ?_⟩
    rw [Entries.ofNamed, List.map_cons, List.map_cons, Sql.quoteAll, List.mapM_cons,
      Sql.quoteIdentifier, hsafe]
    show (Sql.quoteAll ((Entries.ofNamed rest).map (·.1)) >>= _) = _
    rw [htexts]
    rfl

/-- Safe names of columns are inserted into a table that can be named. -/
theorem insertRow_of_safe {tableName : Value} {table : String} {data : Dictionary Value}
    (htable : Sql.safeName tableName = .ok table)
    (h : ∀ name ∈ data.names, Sql.isSafeName name.toList = true) :
    Sql.insertRow tableName (.mapping (Entries.ofNamed data)) =
      .ok ⟨Sql.insertionText table data.names, data.map (·.2)⟩ := by
  obtain ⟨f, hf⟩ : ∃ f, Sql.insertRow tableName (.mapping (Entries.ofNamed data)) = .ok f := by
    obtain ⟨texts, htexts⟩ := quoteAll_of_safe h
    rw [Sql.insertRow, Sql.quoteIdentifier, htable]
    show ∃ f, (if !(Value.mapping (Entries.ofNamed data)).truthy then _ else _) = _
    split
    · exact ⟨_, rfl⟩
    · show ∃ f, (Sql.quoteAll ((Entries.ofNamed data).map (·.1)) >>= _) = _
      rw [htexts]
      exact ⟨_, rfl⟩
  obtain ⟨name, hname, -, rfl⟩ := Sql.insertRow_ofNamed hf
  cases htable.symm.trans hname
  exact hf

/-- The data of an insertion: some columns of the table, and what is given among them. -/
structure Supplies (m : Mapper) (given : String → Value → Prop) (data : Dictionary Value)
    (w : World) : Prop where
  columns : data.names.Sublist m.columns.names
  kept : ∀ name v held, given name v → (name, held) ∈ data → w.shelf.Kept v held
  there : ∀ name v, given name v → name ∈ m.columns.names → (name = m.key → v.isNull = false) →
    name ∈ data.names

/-- Saving an entity that is ready comes to its insertion. -/
theorem save_ready {table : String} (hm : Insertable w model m table)
    (h : Ready (some session) model given ref w) :
    ∃ data t, Aside w t ∧ Ready (some session) model given ref t ∧ Supplies m given data t ∧
      (save ref).runOn w = (query ⟨Sql.insertionText table data.names, data.map (·.2)⟩ >>=
        afterInsertion ref m.key).runOn t := by
  obtain ⟨data, t, hdata, haside, hready, hkept⟩ := insertData_ready hm.makes h
  have hnames := insertData_names hdata
  rw [columnsOf_names] at hnames
  simp only [columnsOf_names] at hkept
  have hsession : (sessionOf ref).runOn w = (.ok session, w) := by
    rw [sessionOf, Action.runOn_bind_ok (Action.runOn_get w), h.session_eq]
    rfl
  have hmapper : (reading (·.mapperOf ref)).runOn w = (.ok m, w) := by
    rw [runOn_reading, mapperOf, h.model_eq, hm.mapper_eq]
  have hstatement : (Action.ofExcept (Sql.insertRow m.tableName
      (.mapping (Entries.ofNamed data))) : Action World Sql.Fragment).runOn t =
      (.ok ⟨Sql.insertionText table data.names, data.map (·.2)⟩, t) := by
    rw [Action.runOn_ofExcept, insertRow_of_safe hm.table_eq fun name hname =>
      hm.safe name (hnames.subset hname)]
  refine ⟨data, t, haside, hready, ⟨hnames, fun name v held hgiven =>
    (hkept name v hgiven).kept held, fun name v hgiven => (hkept name v hgiven).there⟩, ?_⟩
  rw [save, Action.runOn_bind_ok hsession, Action.runOn_bind_ok hmapper,
    Action.runOn_bind_ok (Action.runOn_get w), Action.runOn_bind_ok hdata,
    Action.runOn_bind_ok hstatement]
  rfl

/-- Making an entity of properties that can be set comes to its insertion. -/
theorem create_ready {table : String} (hm : Insertable w model m table)
    (hmodel : (w.registry.classAt model).ref.id = model) {properties : Dictionary Value}
    (hopen : ∀ name ∈ properties.names, Open w.registry model name) (session : String) :
    ∃ ref data t, Aside w t ∧
      Ready (some session) model
        (fun name v => Entries.lastGiven name (Entries.ofNamed properties) = some v) ref t ∧
      Supplies m (fun name v => Entries.lastGiven name (Entries.ofNamed properties) = some v)
        data t ∧
      (create session model properties).runOn w =
        (query ⟨Sql.insertionText table data.names, data.map (·.2)⟩ >>= fun answer =>
          afterInsertion ref m.key answer >>= fun _ => pure ref).runOn t := by
  obtain ⟨ref, w₁, hmake, haside₁, hready₁⟩ := make_ready hmodel hopen
  obtain ⟨w₂, hbind, haside₂, hready₂⟩ := bindTo_ready hready₁ session
  have hnew := haside₁.trans haside₂
  obtain ⟨m', hm', hcolumns, hkey⟩ := hm.later hnew.registry_eq hnew.shelf_prefix
  obtain ⟨data, t, haside, hready, hdata, hsave⟩ := save_ready hm' hready₂
  refine ⟨ref, data, t, hnew.trans haside, hready, ⟨hcolumns ▸ hdata.columns,
    hdata.kept, hcolumns ▸ hkey ▸ hdata.there⟩, ?_⟩
  rw [create, Action.runOn_bind_ok hmake, Action.runOn_bind_ok hbind, Action.runOn_bind, hsave,
    ← Action.runOn_bind, bind_assoc, hkey]

/-! ## 3. After the insertion -/

/-- Asking the database leaves an entity as it is. -/
theorem Ready.still (h : Ready bound model given ref w) (hstill : Still w t) :
    Ready bound model given ref t := by
  have hentity : t.entityAt ref = w.entityAt ref := by
    rw [entityAt, hstill.entities_eq]
    rfl
  refine ⟨hstill.entities_eq ▸ h.inside, hentity ▸ h.model_eq, hentity ▸ h.session_eq, ?_⟩
  intro name v hgiven
  obtain ⟨held, hget, hkept⟩ := h.holds name v hgiven
  exact ⟨held, hentity ▸ hget, hkept.mono hstill.shelf_prefix⟩

section Inserted

variable {table : String}

/-- The key of an entity that can be inserted can be read. -/
theorem Ready.keyValue (h : Ready bound model given ref w) (hm : Insertable w model m table) :
    ∃ key, w.keyValue ref = .ok key := by
  obtain ⟨known, hknown, hm'⟩ := bind_eq_ok.mp hm.mapper_eq
  cases hm'
  obtain ⟨index, hcolumn⟩ := hm.key
  rw [World.keyValue, h.model_eq, hknown]
  show ∃ key, w.heldAttribute ref known.key = .ok key
  rw [heldAttribute]
  split
  · exact ⟨_, rfl⟩
  · simp [inherited, h.model_eq, hcolumn]

theorem afterInsertion_alters (ref : EntityRef) (key : String) (answer : Answer) :
    (afterInsertion ref key answer).Obeys (Alters ref) := by
  have hread : (reading (·.keyValue ref)).Obeys (Alters ref) := fun w => refl_of (Alters ref) w
  have hend : (do
      setState ref .persistent
      reading (·.keyValue ref) : Action World Value).Obeys (Alters ref) :=
    .bind (updateEntity_alters fun _ => rfl) fun _ => hread
  exact .bind hread fun _ =>
    .ite (.bind (.ofExcept _) fun _ => .bind (setAttribute_alters _ _) fun _ => hend) hend

/-- The key is taken from the answer of the database. -/
theorem afterInsertion_ok (hm : Insertable w model m table) (h : Ready bound model given ref w)
    (insertId count : Value) :
    ∃ key, ((afterInsertion ref m.key (.done insertId count)).runOn w).1 = .ok key := by
  have hend {u : World} {key : Value} (hin : ref.id < u.entities.length)
      (hkey : u.keyValue ref = .ok key) : ∃ key, ((do
        setState ref .persistent
        reading (·.keyValue ref) : Action World Value).runOn u).1 = .ok key := by
    let change (e : Entity) : Entity := { e with state := .persistent }
    have hentity : ((World.updateEntity ref change).runOn u).2.entityAt ref =
        change (u.entityAt ref) := entityAt_set hin _ u.shelf
    have hmodel : (((World.updateEntity ref change).runOn u).2.entityAt ref).model =
        (u.entityAt ref).model := by rw [hentity]
    have hkey := keyValue_of_kept (w := u) (t := ((World.updateEntity ref change).runOn u).2) rfl
      hmodel (fun name hnone => by rwa [hentity] at hnone) hkey
    exact hkey
  obtain ⟨key, hkey⟩ := h.keyValue hm
  obtain ⟨index, hcolumn⟩ := hm.key
  have hfree : w.property? ref m.key = none := by
    rw [property?, h.model_eq, hcolumn]
  have hread : (reading (·.keyValue ref)).runOn w = (.ok key, w) := congrArg (·, w) hkey
  rw [afterInsertion, Action.runOn_bind_ok hread]
  split
  · have hset : (setAttribute ref m.key insertId).runOn w =
        (.ok (), ((setAttribute ref m.key insertId).runOn w).2) := by
      rw [setAttribute, Action.runOn_bind_ok (Action.runOn_get w), hfree]
      rfl
    obtain ⟨key', hkey'⟩ := keyValue_setAttribute h.inside hkey hset
    show ∃ key, ((setAttribute ref m.key insertId >>= fun _ => _).runOn w).1 = _
    rw [Action.runOn_bind_ok hset]
    exact hend (((setAttribute_alters m.key insertId).of_run hset).inside h.inside) hkey'
  · exact hend h.inside hkey

end Inserted

/-! ## 4. What is reported -/

/-- A message is reported, or it is wanted and cannot be put into words. -/
theorem debug_ends (source : String) (message : World → Printed) (w : World) :
    (∃ t, (debug source message).runOn w = (.ok (), t)) ∨
    ∃ why, message w = .error why ∧ w.engine.debugging = true ∧
      (debug source message).runOn w = (.error (.ofUnprintable why), w) := by
  rw [debug, Action.runOn_bind_ok (Action.runOn_get w)]
  split
  · next hwanted =>
    cases hmessage : message w with
    | ok text => exact .inl ⟨_, rfl⟩
    | error why => exact .inr ⟨why, rfl, hwanted, rfl⟩
  · exact .inl ⟨w, rfl⟩

theorem query_reports (f : Sql.Fragment) (w : World) :
    w.engine.SameReports ((query f).runOn w).2.engine := by
  obtain ⟨hlog, hdebugging⟩ :=
    Engine.query_reports w.observer f.text (f.params.map w.expand) w.expectantEngine
  exact ⟨hlog, hdebugging⟩

theorem withEngine_printReference (w : World) (engine : Engine) (depth : Nat) :
    (w.withEngine engine).printReference depth = w.printReference depth := by
  induction depth with
  | zero => rfl
  | succ depth ih =>
    funext opened v
    unfold printReference
    rw [ih]
    rfl

/-- What is printed does not depend on the engine. -/
theorem query_literal (f : Sql.Fragment) (w : World) (v : Value) :
    ((query f).runOn w).2.literal v = w.literal v :=
  congrArg (fun reference => (w.expand v).literalIn reference [])
    (withEngine_printReference w _ w.printingDepth)

end RowMapper.World
