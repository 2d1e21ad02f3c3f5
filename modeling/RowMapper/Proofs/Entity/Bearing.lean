import RowMapper.Proofs.Entity.Creation
import RowMapper.Proofs.Entity.Fresh
import RowMapper.Proofs.Entity.Loaded

/-!
# What entities bear

An entity that is made of a row and then changed and written bears nothing but what the row has, what
is given, what stands for columns that are not set, and the key that the database made.  So if these
are all of one sort, then so is whatever the entity bears at any time (`Bears`).
-/
namespace RowMapper.World

open Model (Mapper Registry)

variable {S : Value → Prop} {model : Nat} {ref : EntityRef} {w w' t : World}

/-! ## 1. Sorts of values -/

/-- The entities of a model can be written: the model goes by its number, it has the column of its
key, and what stands for a column that is not set is a value of the sort. -/
structure Storable (S : Value → Prop) (r : Registry) (model : Nat) : Prop where
  id_eq : (r.classAt model).ref.id = model
  mapped : ∃ m, r.mapperOf model = .ok m ∧
    (∃ index, r.attribute? model m.key = some (.column index)) ∧
    ∀ entry ∈ r.columnsOf m, ∀ absent, entry.2.absent = some absent →
      ∃ v, absent = .fixed v ∧ S v

/-- An entity of a model bears values of a sort under names, and nothing else. -/
structure Bears (S : Value → Prop) (model : Nat) (ref : EntityRef) (w : World) : Prop where
  inside : ref.id < w.entities.length
  model_eq : (w.entityAt ref).model.id = model
  storable : Storable S w.registry model
  attributes : ∃ d, Mirrors d ref w ∧ ∀ entry ∈ d, S entry.2

theorem Bears.of_entity (h : Bears S model ref w) (hin : ref.id < w'.entities.length)
    (hmodel : (w'.entityAt ref).model = (w.entityAt ref).model)
    (hattributes : (w'.entityAt ref).attributes = (w.entityAt ref).attributes)
    (hregistry : w'.registry = w.registry) (hshelf : w.shelf <+: w'.shelf) :
    Bears S model ref w' := by
  obtain ⟨d, hmirrors, hd⟩ := h.attributes
  exact ⟨hin, hmodel ▸ h.model_eq, hregistry ▸ h.storable, d, hmirrors.mono hattributes hshelf, hd⟩

theorem Bears.still (h : Bears S model ref w) (hstill : Still w w') : Bears S model ref w' := by
  have hentity := hstill.entityAt_eq ref
  exact h.of_entity (hstill.entities_eq ▸ h.inside) (congrArg Entity.model hentity)
    (congrArg Entity.attributes hentity) hstill.registry_eq hstill.shelf_prefix

theorem Bears.adds (h : Bears S model ref w) (hadds : Adds w w') : Bears S model ref w' := by
  have hentity := hadds.entityAt_eq h.inside
  have hin : ref.id < w'.entities.length := Nat.lt_of_lt_of_le h.inside hadds.length_le
  exact h.of_entity hin (congrArg Entity.model hentity) (congrArg Entity.attributes hentity)
    hadds.registry_eq hadds.shelf_prefix

/-- The state and the session of an entity do not matter. -/
theorem Bears.updateEntity (h : Bears S model ref w) {change : Entity → Entity}
    (hmodel : ∀ e, (change e).model = e.model)
    (hattributes : ∀ e, (change e).attributes = e.attributes) :
    Bears S model ref ((World.updateEntity ref change).runOn w).2 := by
  have hentity : ((World.updateEntity ref change).runOn w).2.entityAt ref =
      change (w.entityAt ref) := entityAt_set h.inside _ w.shelf
  refine h.of_entity ?_ ?_ ?_ rfl List.prefix_rfl
  · exact (updateEntity_alters hmodel w).inside h.inside
  · rw [hentity, hmodel]
  · rw [hentity, hattributes]

/-- The key of an entity can be read: it is null, or it came of a value of the sort. -/
theorem Bears.keyValue (h : Bears S model ref w) : ∃ key, w.keyValue ref = .ok key ∧
    (key = .null ∨ ∃ v, S v ∧ Shelf.Kept w.shelf v key) := by
  obtain ⟨m, hm, ⟨index, hcolumn⟩, -⟩ := h.storable.mapped
  obtain ⟨d, ⟨held, hheld, halike⟩, hd⟩ := h.attributes
  rw [World.keyValue, h.model_eq, hm]
  show ∃ key, w.heldAttribute ref m.key = .ok key ∧ _
  have hrel := halike.get? m.key
  rw [heldAttribute, hheld, Entries.get?_ofNamed]
  cases hget : Dictionary.get? held m.key with
  | some key =>
    rw [hget] at hrel
    generalize hgiven : d.get? m.key = given at hrel
    cases hrel with
    | some hkept => exact ⟨key, rfl, .inr ⟨_, hd _ (Dictionary.mem_of_get? hgiven), hkept⟩⟩
  | none => exact ⟨.null, by simp [inherited, h.model_eq, hcolumn], .inl rfl⟩

theorem Bears.mapperOf (h : Bears S model ref w) : w.mapperOf ref = w.mapper model := by
  rw [World.mapperOf, h.model_eq]

/-- What the mapper of an entity says of columns is what its class says. -/
theorem Bears.mapped_columns (h : Bears S model ref w) {m : Mapper} (hm : w.mapperOf ref = .ok m) :
    ∃ known, w.registry.mapperOf model = .ok known ∧ known.columns = m.columns ∧
      known.key = m.key := by
  rw [h.mapperOf] at hm
  obtain ⟨known, hknown, hm⟩ := bind_eq_ok.mp hm
  cases hm
  exact ⟨known, hknown, rfl, rfl⟩

/-- A value of a database can be printed, with its number or without. -/
theorem displayIn_datum {v held : Value} (h : v.isDatum = true) (hheld : held = v ∨
    ∃ number, held = v.lyingAt number) (reference : ReferencePrinter) (opened : List Nat) :
    ∃ text, held.displayIn reference opened = .ok text := by
  rcases hheld with rfl | ⟨number, rfl⟩
  · cases held <;> first | cases h; done | exact ⟨_, rfl⟩
  · cases v <;> first | cases h; done | exact ⟨_, rfl⟩

/-- A message that can be put into words is reported. -/
theorem debug_of_printed (source : String) {message : World → Printed} {text : String}
    (h : message w = .ok text) :
    ∃ t, (debug source message).runOn w = (.ok (), t) ∧ Still w t := by
  refine ⟨_, Prod.ext ?_ rfl, debug_still source message w⟩
  rw [debug, Action.runOn_bind_ok (Action.runOn_get w)]
  split
  · rw [h]
    rfl
  · rfl

/-- An entity that bears values of a database can be printed. -/
theorem Bears.literal_isOk (hdatum : ∀ v, S v → v.isDatum = true) (h : Bears S model ref w) :
    ∃ text, w.literal (.entity ref) = .ok text := by
  obtain ⟨key, hkey, hborne⟩ := h.keyValue
  have hdepth : ∃ depth, w.printingDepth = depth + 1 :=
    Nat.exists_eq_succ_of_ne_zero (Nat.mul_ne_zero (by omega) (by omega))
  obtain ⟨depth, hdepth⟩ := hdepth
  show ∃ text, w.printReference w.printingDepth [] (.entity ref) = .ok text
  rw [hdepth, printReference, hkey]
  rcases hborne with rfl | ⟨v, hv, hkept⟩
  · exact ⟨_, rfl⟩
  · obtain ⟨shown, hshown⟩ := displayIn_datum (hdatum v hv)
      (Shelf.expand_kept hkept (hdatum v hv)) (w.printReference depth) []
    split
    · exact ⟨_, rfl⟩
    · next found hfound =>
      cases hfound
      exact ⟨_, congrArg (Except.map (entityText ref.model)) hshown⟩
    · next hfault => cases hfault

/-! ## 2. Setting -/

theorem holdAttribute_bears (h : Bears S model ref w) (name : String) {value : Value}
    (hvalue : S value) : ∃ t, (holdAttribute ref (.str name) value).runOn w = (.ok (), t) ∧
      Bears S model ref t := by
  obtain ⟨d, hmirrors, hd⟩ := h.attributes
  obtain ⟨t, hrun, hheld⟩ := holdAttribute_mirrors h.inside hmirrors name value
  have halters := (holdAttribute_alters (.str name) value).of_run hrun
  exact ⟨t, hrun, halters.inside h.inside, halters.model_eq h.inside ▸ h.model_eq,
    halters.registry_eq ▸ h.storable, _, hheld, Dictionary.forall_mem_insert hd hvalue⟩

theorem setAttribute_bears (h : Bears S model ref w) {name : String} {value : Value}
    (hvalue : S value) (hrun : (setAttribute ref name value).runOn w = (.ok (), t)) :
    Bears S model ref t := by
  rw [setAttribute, Action.runOn_bind_ok (Action.runOn_get w)] at hrun
  obtain ⟨-, hrun⟩ := Action.runOn_guarded_eq_ok.mp hrun
  obtain ⟨t', hheld, hbears⟩ := holdAttribute_bears h name hvalue
  cases hrun.symm.trans hheld
  exact hbears

theorem setEntries_bears {entries : Dictionary Value} (h : Bears S model ref w)
    (hentries : ∀ entry ∈ entries, S entry.2)
    (hrun : (setEntries ref (Entries.ofNamed entries)).runOn w = (.ok (), t)) :
    Bears S model ref t := by
  induction entries generalizing w with
  | nil =>
    cases hrun
    exact h
  | cons entry rest ih =>
    obtain ⟨hentry, hrest⟩ := List.forall_mem_cons.mp hentries
    change (setAttribute ref entry.1 entry.2 >>= fun _ =>
      setEntries ref (Entries.ofNamed rest)).runOn w = _ at hrun
    obtain ⟨_, u, hset, hrun⟩ := Action.runOn_bind_eq_ok.mp hrun
    exact ih (setAttribute_bears h hentry hset) hrest hrun

/-! ## 3. Making -/

/-- An entity that was just made bears nothing. -/
theorem bears_new (h : Storable S w.registry model) :
    Bears S model ⟨w.entities.length, (w.registry.classAt model).ref.name⟩ { w with
      entities := w.entities ++ [{ model := (w.registry.classAt model).ref }] } where
  inside := by simp
  model_eq := by simp [entityAt, h.id_eq]
  storable := h
  attributes := by
    refine ⟨[], ⟨[], ?_, .nil⟩, List.forall_mem_nil _⟩
    simp only [entityAt, List.getElem?_concat_length, Option.getD_some]
    exact List.map_nil.symm

theorem make_bears (hstorable : Storable S w.registry model) {properties : Dictionary Value}
    (hproperties : ∀ entry ∈ properties, S entry.2)
    (hrun : (make model properties).runOn w = (.ok ref, t)) : Bears S model ref t := by
  rw [make, Action.runOn_bind_ok (Action.runOn_get w),
    Action.runOn_bind_ok (addEntity_runOn _ w)] at hrun
  obtain ⟨_, u, hset, hrun⟩ := Action.runOn_bind_eq_ok.mp hrun
  cases hrun
  exact setEntries_bears (bears_new hstorable) hproperties hset

/-- The entity of a row bears what the row has. -/
theorem hydrate_bears (hstorable : Storable S w.registry model) {session : String}
    {excluded : List String} {row : Row} (hrow : ∀ entry ∈ row, S entry.2)
    (hrun : (hydrate model session excluded row).runOn w = (.ok ref, t)) : Bears S model ref t := by
  obtain ⟨made, u, hmake, hrun⟩ := Action.runOn_bind_eq_ok.mp hrun
  have hbears := make_bears hstorable (fun entry hentry =>
    hrow entry (Dictionary.mem_ofList (List.mem_filter.mp hentry).1)) hmake
  let loaded (e : Entity) : Entity := { e with state := .persistent, session := some session }
  have hloaded (e : Entity) : (loaded e).model = e.model ∧ (loaded e).attributes = e.attributes :=
    ⟨rfl, rfl⟩
  cases hrun
  exact hbears.updateEntity (fun e => (hloaded e).1) fun e => (hloaded e).2

theorem bindTo_bears {session : String} (h : Bears S model ref w)
    (hrun : (bindTo session ref).runOn w = (.ok (), t)) : Bears S model ref t := by
  let bound (e : Entity) : Entity := { e with session := some session }
  have hbound (e : Entity) : (bound e).model = e.model ∧ (bound e).attributes = e.attributes :=
    ⟨rfl, rfl⟩
  have hlast {u : World} (hu : Bears S model ref u)
      (hrun : (World.updateEntity ref bound).runOn u = (.ok (), t)) : Bears S model ref t := by
    cases hrun
    exact hu.updateEntity (fun e => (hbound e).1) fun e => (hbound e).2
  rw [bindTo, Action.runOn_bind_ok (Action.runOn_get w)] at hrun
  dsimp only at hrun
  split at hrun
  · obtain ⟨_, u, hdebug, hrun⟩ := Action.runOn_bind_eq_ok.mp hrun
    exact hlast (h.still ((debug_still _ _).of_run hdebug)) hrun
  · exact hlast h hrun

/-- What stands for columns that are not set is borne then. -/
theorem insertData_bears (hdatum : ∀ v, S v → v.isDatum = true) {key : String}
    {columns : List (String × Model.Column)} {data : Dictionary Value}
    (hcolumns : ∀ entry ∈ columns, ∀ absent, entry.2.absent = some absent →
      ∃ v, absent = .fixed v ∧ S v)
    (h : Bears S model ref w) (hrun : (insertData ref key columns).runOn w = (.ok data, t)) :
    Bears S model ref t := by
  induction columns generalizing w data with
  | nil =>
    cases hrun
    exact h
  | cons entry rest ih =>
    obtain ⟨name, column⟩ := entry
    obtain ⟨hcolumn, hrest⟩ := List.forall_mem_cons.mp hcolumns
    rw [insertData, Action.runOn_bind_ok (Action.runOn_get w)] at hrun
    split at hrun
    · obtain ⟨others, u, hothers, hrun⟩ := Action.runOn_bind_eq_ok.mp hrun
      cases hrun
      exact ih hrest h hothers
    · next absent _ habsent =>
      obtain ⟨v, rfl, hv⟩ := hcolumn absent habsent
      obtain ⟨value, u, hvalue, hrun⟩ := Action.runOn_bind_eq_ok.mp hrun
      -- a value of a database stands for itself
      have hself : (defaultValue (.fixed v)).runOn w = (.ok v, w) := by
        have hv := hdatum v hv
        cases v <;> first | rfl | cases hv
      cases hself.symm.trans hvalue
      obtain ⟨_, u', hheld, hrun⟩ := Action.runOn_bind_eq_ok.mp hrun
      obtain ⟨others, u'', hothers, hrun⟩ := Action.runOn_bind_eq_ok.mp hrun
      obtain ⟨_, hheld', hbears⟩ := holdAttribute_bears h name hv
      cases hheld.symm.trans hheld'
      cases hrun
      exact ih hrest hbears hothers
    · exact ih hrest h hrun

/-- After an insertion nothing can fail. -/
theorem afterInsertion_bears (h : Bears S model ref w) {m : Mapper}
    (hm : w.registry.mapperOf model = .ok m) {insertId : Value} (hid : S insertId) (count : Value) :
    ∃ key t, (afterInsertion ref m.key (.done insertId count)).runOn w = (.ok key, t) ∧
      Bears S model ref t := by
  have hend {u : World} (hu : Bears S model ref u) : ∃ key t, (do
      setState ref .persistent
      reading (·.keyValue ref) : Action World Value).runOn u = (.ok key, t) ∧
      Bears S model ref t := by
    let change (e : Entity) : Entity := { e with state := .persistent }
    have hchange (e : Entity) : (change e).model = e.model ∧ (change e).attributes = e.attributes :=
      ⟨rfl, rfl⟩
    have hstate := hu.updateEntity (fun e => (hchange e).1) fun e => (hchange e).2
    obtain ⟨key, hkey, -⟩ := hstate.keyValue
    exact ⟨key, _, congrArg (·, _) hkey, hstate⟩
  obtain ⟨m', hm', ⟨index, hcolumn⟩, -⟩ := h.storable.mapped
  cases hm.symm.trans hm'
  have hfree : w.property? ref m.key = none := by
    rw [property?, h.model_eq, hcolumn]
  obtain ⟨key, hkey, -⟩ := h.keyValue
  have hread : (reading (·.keyValue ref)).runOn w = (.ok key, w) := congrArg (·, w) hkey
  rw [afterInsertion, Action.runOn_bind_ok hread]
  split
  · obtain ⟨u, hset, hbears⟩ := holdAttribute_bears h m.key hid
    have hset : (setAttribute ref m.key insertId).runOn w = (.ok (), u) := by
      rw [setAttribute, Action.runOn_bind_ok (Action.runOn_get w), hfree]
      exact hset
    show ∃ key t, (setAttribute ref m.key insertId >>= fun _ => _).runOn w = _ ∧ _
    rw [Action.runOn_bind_ok hset]
    exact hend hbears
  · exact hend h

end RowMapper.World
